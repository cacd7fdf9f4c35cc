import CredBridge.Theorems.OrderStatus

/-! # Outcomes that orders record

An order records when it was confirmed, and when and why it failed. A timeout is recorded as a failure, and an order that
timed out may still be confirmed: the record of its failure stays then. Nothing else lets the record and the status
differ. -/

namespace CredBridge.PixService
open Result Machine

/-- What the order records is the outcome that its status names. -/
structure RecordsOutcome (o : PixOrder) : Prop where
  confirmed : o.status = .confirmed ↔ o.confirmedAt ≠ none
  unfailed : o.status = .confirmed → o.failedAt = none ∧ o.failureReason = none
  failed : o.status = .failed ∨ o.status = .timeout → o.failedAt ≠ none ∧ o.failureReason ≠ none

def OutcomeFields (db : Db) : Prop := ∀ o ∈ db.pixOrders, RecordsOutcome o

/-- The call reports no order that has timed out as confirmed. -/
def LeavesTimeouts (py : Python) (db : Db) (call : Call) : Prop :=
  ∀ o ∈ db.pixOrders, ¬(o.status = .timeout ∧ call.reports py o = some .confirmed)

instance (py : Python) (db : Db) (call : Call) : Decidable (LeavesTimeouts py db call) :=
  inferInstanceAs (Decidable (∀ o ∈ db.pixOrders, ¬(o.status = .timeout ∧ call.reports py o = some .confirmed)))

/-! ### What the records keep -/

/-- Only a failure that was recorded before the order was confirmed is not the status's own. -/
structure Recorded (o : PixOrder) : Prop where
  confirmed : o.status = .confirmed ↔ o.confirmedAt ≠ none
  failed : o.status = .failed ∨ o.status = .timeout → o.failedAt ≠ none ∧ o.failureReason ≠ none
  live : isTerminal o.status = false → o.status ≠ .timeout → o.failedAt = none ∧ o.failureReason = none

section Records
variable {py : Python} {db db' : Db} {call : Call} {o o' : PixOrder} {s : PixOrderStatus}

theorem live_of_allowed (hallowed : isTransitionAllowed o.status s = true) : isTerminal o.status = false := by
  rw [Bool.eq_false_iff]
  intro hterm
  rw [isTerminal_iff.mp hterm] at hallowed
  cases hallowed

theorem untimed_of_allowed (hallowed : isTransitionAllowed o.status s = true) (hlive : isTerminal s = false) :
    o.status ≠ .timeout := by
  intro htimeout
  rw [htimeout] at hallowed
  rw [isTerminal_of_timeout hallowed] at hlive
  cases hlive

theorem Recorded.starts (hstarts : Starts o)
    (hnothing : o.confirmedAt = none ∧ o.failedAt = none ∧ o.failureReason = none) : Recorded o := by
  obtain ⟨hconfirmed, hfailed⟩ := hnothing
  have hstatus : o.status ≠ .confirmed ∧ o.status ≠ .failed ∧ o.status ≠ .timeout := by
    rcases hstarts with ⟨-, h⟩ | ⟨-, h⟩ <;> rw [h] <;> decide
  exact ⟨iff_of_false hstatus.1 (not_not.mpr hconfirmed), fun h => absurd h (not_or.mpr hstatus.2), fun _ _ => hfailed⟩

theorem Recorded.canceled (h : Recorded o) (hlive : isTerminal o.status = false) :
    Recorded { o with status := .canceled } where
  confirmed := by
    have hnot : o.status ≠ .confirmed := fun heq => by rw [heq] at hlive; cases hlive
    exact iff_of_false nofun fun hconfirmed => hnot (h.confirmed.mpr hconfirmed)
  failed hstatus := by rcases hstatus with h | h <;> cases h
  live hlive := by cases hlive

theorem Recorded.applied (h : Recorded o) (happlied : Applied o o' s) : Recorded o' := by
  obtain ⟨-, rfl, hallowed, hconfirmedAt, hfailure⟩ := happlied
  have hlive := live_of_allowed hallowed
  have hnot : o.status ≠ .confirmed := fun heq => by rw [heq] at hlive; cases hlive
  refine ⟨?_, fun hs => ?_, fun hlive' htimeout => ?_⟩
  · split at hconfirmedAt
    · next hs => exact iff_of_true hs hconfirmedAt
    · next hs =>
      rw [hconfirmedAt]
      exact iff_of_false hs fun hset => hnot (h.confirmed.mpr hset)
  · rwa [if_pos hs] at hfailure
  · have hs : ¬(o'.status = .failed ∨ o'.status = .timeout) :=
      not_or.mpr ⟨fun heq => (by rw [heq] at hlive'; cases hlive'), htimeout⟩
    rw [if_neg hs] at hfailure
    rw [hfailure.1, hfailure.2]
    exact h.live hlive (untimed_of_allowed hallowed hlive')

theorem RecordsOutcome.of_recorded (h : Recorded o) (hstatus : o.status ≠ .confirmed) : RecordsOutcome o :=
  ⟨h.confirmed, fun heq => absurd heq hstatus, h.failed⟩

/-- After an event the record is the status's own, unless it confirmed an order that had timed out. -/
theorem Recorded.recordsOutcome_iff (h : Recorded o) (happlied : Applied o o' s) :
    RecordsOutcome o' ↔ ¬(o.status = .timeout ∧ s = .confirmed) := by
  have hrecorded := h.applied happlied
  obtain ⟨-, rfl, hallowed, -, hfailure⟩ := happlied
  by_cases hs : o'.status = .confirmed
  · rw [if_neg (by rw [hs]; decide)] at hfailure
    constructor
    · rintro houtcome ⟨htimeout, -⟩
      exact (h.failed (.inr htimeout)).1 (hfailure.1 ▸ (houtcome.unfailed hs).1)
    · intro hnot
      have hunfailed := h.live (live_of_allowed hallowed) fun htimeout => hnot ⟨htimeout, hs⟩
      exact ⟨hrecorded.confirmed, fun _ => hfailure.1 ▸ hfailure.2 ▸ hunfailed, hrecorded.failed⟩
  · exact iff_of_true (.of_recorded hrecorded hs) fun hconfirmed => hs hconfirmed.2

structure Db.Recorded (db : Db) : Prop where
  sound : db.Sound
  orders : ∀ o ∈ db.pixOrders, PixService.Recorded o

theorem Db.Recorded.empty : Db.empty.Recorded := ⟨.empty, List.forall_mem_nil _⟩

theorem Db.Recorded.written (hR : db.Recorded) (hS : db'.Sound) (h : OrdersWritten py db db' call) : db'.Recorded := by
  refine ⟨hS, fun x hx => ?_⟩
  cases h with
  | unchanged h => exact hR.orders x (h ▸ hx)
  | added o _ hstarts hnothing _ h =>
    rw [h] at hx
    rcases List.mem_append.mp hx with hx | hx
    · exact hR.orders x hx
    · rw [List.mem_singleton.mp hx]
      exact .starts hstarts hnothing
  | applied o o' s hmem happlied _ _ h =>
    rw [h] at hx
    obtain ⟨y, hy, rfl⟩ := Table.mem_modify.mp hx
    split
    · exact (hR.orders o hmem).applied happlied
    · exact hR.orders y hy
  | canceled o _ _ hmem hlive h =>
    rw [h] at hx
    obtain ⟨y, hy, rfl⟩ := Table.mem_modify.mp hx
    split
    · exact (hR.orders o hmem).canceled hlive
    · exact hR.orders y hy

theorem LeavesTimeouts.of_reports (h : ∀ o, call.reports py o = none) : LeavesTimeouts py db call := fun o _ hreports =>
  nomatch (h o).symm.trans hreports.2

/-- Where the fields of each order match its status, a call keeps them so exactly if it confirms no order that has timed
    out. -/
theorem outcomeFields_iff (hR : db.Recorded) (hP : OutcomeFields db) (h : OrdersWritten py db db' call) :
    OutcomeFields db' ↔ LeavesTimeouts py db call := by
  cases h with
  | unchanged h hrefused =>
    refine iff_of_true (fun x hx => hP x (h ▸ hx)) fun o ho hreports => ?_
    have hallowed := hrefused o ho .confirmed hreports.2
    rw [hreports.1] at hallowed
    cases hallowed
  | added o _ hstarts hnothing hreports h =>
    refine iff_of_true (fun x hx => ?_) (.of_reports hreports)
    rw [h] at hx
    rcases List.mem_append.mp hx with hx | hx
    · exact hP x hx
    · rw [List.mem_singleton.mp hx]
      refine .of_recorded (.starts hstarts hnothing) ?_
      rcases hstarts with ⟨-, h⟩ | ⟨-, h⟩ <;> rw [h] <;> decide
  | applied o o' s hmem happlied hreports hothers h =>
    have hiff := (hR.orders o hmem).recordsOutcome_iff happlied
    constructor
    · rintro hall x hx ⟨htimeout, hconfirms⟩
      by_cases hid : x.id = o.id
      · obtain rfl := hR.sound.keyed.eq_of_key hx hmem hid
        exact hiff.mp (hall o' (mem_written hmem h)) ⟨htimeout, Option.some.inj (hreports.symm.trans hconfirms)⟩
      · exact nomatch (hothers x hid).symm.trans hconfirms
    · intro hleaves x hx
      rw [h] at hx
      obtain ⟨y, hy, rfl⟩ := Table.mem_modify.mp hx
      split
      · exact hiff.mpr fun hconfirms => hleaves o hmem ⟨hconfirms.1, hreports.trans (congrArg some hconfirms.2)⟩
      · exact hP y hy
  | canceled o answer hcall hmem hlive h =>
    refine iff_of_true (fun x hx => ?_) (.of_reports fun _ => by rw [hcall]; rfl)
    rw [h] at hx
    obtain ⟨y, hy, rfl⟩ := Table.mem_modify.mp hx
    split
    · exact .of_recorded ((hR.orders o hmem).canceled hlive) nofun
    · exact hP y hy

end Records

/-! ### Runs -/

section Runs
variable (py : Python) (settings : Settings) (is : List (Fresh × Call))

/-- The fields of each order match its status throughout a run exactly if no call that succeeds confirms an order that has
    timed out. -/
theorem outcome_fields_iff :
    Throughout (step py settings) OutcomeFields Db.empty is ↔
      Along (step py settings)
        (fun db i => ∀ db', step py settings db i = .ok db' → LeavesTimeouts py db i.2) Db.empty is := by
  refine throughout_iff_along (I := Db.Recorded) ?_ ?_ .empty (List.forall_mem_nil _)
  · intro db i db' hR h
    exact hR.written (hR.sound.step py settings i.1 i.2 h) (step_written hR.sound.keyed h)
  · intro db i db' hR hP h
    exact outcomeFields_iff hR hP (step_written hR.sound.keyed h)

end Runs

section Examples

def lateConfirmation : List (Fresh × Call) :=
  twoOrders ++ [(⟨"", "", "3", 1, 1⟩, .applyCorpxEvent "w" "pix.out.timeout" (.object [])),
    (⟨"", "", "4", 2, 2⟩, .applyCorpxEvent "w" "pix.out.completed" (.object []))]

/-- A withdrawal that times out and is then completed is confirmed, and has failed. -/
theorem late_confirmation_failed : ¬Throughout (step plainPython testSettings) OutcomeFields Db.empty lateConfirmation := by
  intro h
  obtain ⟨o, ho, hconfirmed, hfailed⟩ : ∃ o ∈ (run (step plainPython testSettings) Db.empty lateConfirmation).pixOrders,
      o.status = .confirmed ∧ o.failedAt ≠ none := by decide +kernel
  exact hfailed ((h.last o ho).unfailed hconfirmed).1

end Examples
end CredBridge.PixService
