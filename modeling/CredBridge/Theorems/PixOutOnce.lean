import CredBridge.PixService.PixOut

/-! # One Pix Out for each withdrawal

The provider tells requests apart by an identifier that each of them draws anew, so only the service can keep
the Pix Out of an order from being asked for twice. It does when a request that finds no order is alone with
its `external_id` from the lookup to the answer of the provider, and when each Pix Out that was executed has
its row. The invariant: the executed Pix Outs of an order and the requests that are still to ask for one are
at most one together. -/

namespace CredBridge.PixService
open Concurrent Machine Result

def World.executedFor (s : World) (externalId : String) : List PixOut :=
  s.executed.filter fun p => p.externalId = externalId

def World.payments (externalId : String) (s : World) : Nat := (s.executedFor externalId).length

def PaidOnce (c : Config World Waiting) : Prop := ∀ externalId, c.shared.payments externalId ≤ 1

def Waiting.unpaid (externalId : String) : Waiting → Nat
  | .dictLookup w => if w.request.externalId = externalId then 1 else 0
  | .createPixOutAsync w => if w.request.externalId = externalId then 1 else 0
  | .commit _ _ => 0

def World.Recorded (s : World) (externalId : String) : Prop :=
  s.executedFor externalId ≠ [] → (findOrderByExternalId s.db externalId).isSome

/-- A new request finds its order, or is the only one for it up to the answer of the provider; every Pix Out that
    was executed for the order has its row. -/
def LooksUpAlone (c : Config World Waiting) : Op (Fresh × CreateWithdrawalOrderRequest) Answer → Prop
  | .start call => c.shared.Recorded call.2.externalId ∧
      (findOrderByExternalId c.shared.db call.2.externalId = none → c.load (Waiting.unpaid call.2.externalId) = 0)
  | _ => True

/-- The executed Pix Outs of an order and the requests that are still to ask for one are at most one together. -/
def Reserved (c : Config World Waiting) : Prop :=
  ∀ externalId, c.potential (World.payments externalId) (Waiting.unpaid externalId) ≤ 1

section Steps
variable {py : Python} {settings : Settings} {c c' : Config World Waiting} {waiting : Waiting}
  {op : Op (Fresh × CreateWithdrawalOrderRequest) Answer}

theorem payments_corpxExecute (s : World) (externalId : String) (p : PixOut) :
    World.payments externalId { s with executed := corpxExecute s.executed p } ≤
      s.payments externalId + if p.externalId = externalId then 1 else 0 := by
  simp only [World.payments, World.executedFor, corpxExecute]
  split
  · exact Nat.le_add_right _ _
  · rw [List.filter_append, List.length_append]
    by_cases hp : p.externalId = externalId <;> simp [hp]

theorem startWithdrawal_spec (py : Python) (s : World) (call : Fresh × CreateWithdrawalOrderRequest) :
    (startWithdrawal py call s).1 = s ∧
      ((startWithdrawal py call s).2 = none ∨ findOrderByExternalId s.db call.2.externalId = none ∧
        ∃ w, (startWithdrawal py call s).2 = some (.dictLookup w) ∧ w.request = call.2) := by
  unfold startWithdrawal
  split
  · exact ⟨rfl, .inl rfl⟩
  · next hnone =>
    split
    · exact ⟨rfl, .inl rfl⟩
    · exact ⟨rfl, .inr ⟨hnone, _, rfl, rfl⟩⟩

theorem afterDictLookup_spec (s : World) (externalId : String) (w : Withdrawal) (result : Except PyError Unit) :
    World.payments externalId (afterDictLookup w result s).1 +
        weight (Waiting.unpaid externalId) (afterDictLookup w result s).2 ≤
      s.payments externalId + (Waiting.dictLookup w).unpaid externalId := by
  unfold afterDictLookup
  split
  · exact Nat.le_add_right _ _
  · exact Nat.le_refl _

theorem afterPixOut_spec (s : World) (externalId : String) (w : Withdrawal) (taken : Bool)
    (result : Except PyError PixOutResult) :
    World.payments externalId (afterPixOut py settings w taken result s).1 +
        weight (Waiting.unpaid externalId) (afterPixOut py settings w taken result s).2 ≤
      s.payments externalId + (Waiting.createPixOutAsync w).unpaid externalId := by
  have hpayments : World.payments externalId
      { s with executed := if taken then corpxExecute s.executed (w.pixOut py settings) else s.executed } ≤
      s.payments externalId + (Waiting.createPixOutAsync w).unpaid externalId := by
    cases taken with
    | true => exact payments_corpxExecute s externalId _
    | false => exact Nat.le_add_right _ _
  unfold afterPixOut
  cases result with
  | error e => exact hpayments
  | ok out => exact hpayments

theorem commitWithdrawal_spec (settings : Settings) (s : World) (externalId : String) (w : Withdrawal)
    (out : PixOutResult) (reached : Bool) :
    World.payments externalId (commitWithdrawal settings w out reached s).1 = s.payments externalId ∧
      (commitWithdrawal settings w out reached s).2 = none := by
  unfold commitWithdrawal
  split
  · split <;> exact ⟨rfl, rfl⟩
  · exact ⟨rfl, rfl⟩

theorem resumeWithdrawal_spec (s : World) (externalId : String) (answer : Answer) :
    World.payments externalId (resumeWithdrawal py settings waiting answer s).1 +
        weight (Waiting.unpaid externalId) (resumeWithdrawal py settings waiting answer s).2 ≤
      s.payments externalId + waiting.unpaid externalId := by
  unfold resumeWithdrawal
  split
  · next w result => exact afterDictLookup_spec s externalId w result
  · next w taken result => exact afterPixOut_spec s externalId w taken result
  · next w out reached =>
    obtain ⟨hpayments, hover⟩ := commitWithdrawal_spec settings s externalId w out reached
    rw [hpayments, hover]
    exact Nat.le_refl _
  · exact Nat.le_refl _

theorem Reserved.start {call : Fresh × CreateWithdrawalOrderRequest} (hc : Reserved c)
    (halone : LooksUpAlone c (.start call)) : Reserved (.after c.calls (startWithdrawal py call c.shared)) := by
  intro externalId
  obtain ⟨hshared, hover | ⟨hnone, w, hwaits, hw⟩⟩ := startWithdrawal_spec py c.shared call
  · refine Nat.le_trans (potential_start_le (n := 0) ?_) (hc externalId)
    rw [hshared, hover]
    exact Nat.le_refl _
  · by_cases he : call.2.externalId = externalId
    · subst he
      have hunpaid : c.load (Waiting.unpaid call.2.externalId) = 0 := halone.2 hnone
      have hpayments : c.shared.payments call.2.externalId = 0 := by
        by_contra hne
        have hfound := halone.1 fun hnil => hne (congrArg List.length hnil)
        rw [hnone] at hfound
        cases hfound
      refine Nat.le_trans (potential_start_le (n := 1) ?_) ?_
      · rw [hshared, hwaits]
        show _ + (Waiting.dictLookup w).unpaid _ ≤ _
        simp [Waiting.unpaid, hw]
      · rw [Config.potential, hpayments, hunpaid]
    · refine Nat.le_trans (potential_start_le (n := 0) ?_) (hc externalId)
      rw [hshared, hwaits]
      show _ + (Waiting.dictLookup w).unpaid _ ≤ _
      simp [Waiting.unpaid, hw, he]

theorem Reserved.step (hc : Reserved c) (halone : LooksUpAlone c op)
    (hstep : (withdrawals py settings).step c op = .ok c') : Reserved c' := by
  cases step_moved hstep with
  | start call hop hc' =>
    subst hop hc'
    exact hc.start halone
  | resume i answer f rest _ _ hcalls hc' =>
    subst hc'
    intro externalId
    exact Nat.le_trans (potential_resume_le (n := 0) hcalls (resumeWithdrawal_spec c.shared externalId answer)) (hc externalId)
  | crash i f rest _ hcalls hc' =>
    subst hc'
    intro externalId
    exact Nat.le_trans (potential_crash_le hcalls) (hc externalId)

theorem Reserved.nothing_executed (db : Db) : Reserved ⟨⟨db, []⟩, []⟩ := fun _ => Nat.zero_le 1

theorem Reserved.paidOnce (hc : Reserved c) : PaidOnce c := fun externalId =>
  Nat.le_trans (Nat.le_add_right _ _) (hc externalId)

end Steps

section Runs
variable (py : Python) (settings : Settings)

/-- In every run whose requests look their orders up alone, each order has at most one Pix Out. -/
theorem pix_out_at_most_once (db : Db) (ops : List (Op (Fresh × CreateWithdrawalOrderRequest) Answer))
    (halone : Along (withdrawals py settings).step LooksUpAlone ⟨⟨db, []⟩, []⟩ ops) :
    Throughout (withdrawals py settings).step PaidOnce ⟨⟨db, []⟩, []⟩ ops := by
  have hreserved : Throughout (withdrawals py settings).step Reserved ⟨⟨db, []⟩, []⟩ ops :=
    throughout_of_along (fun _ _ _ hc ha hstep => Reserved.step hc ha hstep) (.nothing_executed db) halone
  exact hreserved.mono fun _ hc => hc.paidOnce

end Runs

section Examples

instance (c : Config World Waiting) : (op : Op (Fresh × CreateWithdrawalOrderRequest) Answer) →
    Decidable (LooksUpAlone c op)
  | .start call =>
    inferInstanceAs (Decidable ((c.shared.executedFor call.2.externalId ≠ [] → _ = true) ∧ (_ = none → _ = 0)))
  | .resume _ _ => instDecidableTrue
  | .crash _ => instDecidableTrue

def withdrawalCall (drawn : String) : Fresh × CreateWithdrawalOrderRequest := (⟨drawn, drawn, drawn, 0, 0⟩, withdrawalRequest)

theorem pix_out_at_most_once_retried :
    Throughout (withdrawals plainPython testSettings).step PaidOnce ⟨⟨.empty, []⟩, []⟩
      [.start (withdrawalCall "1"), .resume 0 (.dictLookup (.ok ())), .resume 0 (.createPixOutAsync false (.error .other)),
        .start (withdrawalCall "2"), .resume 0 (.dictLookup (.ok ())),
        .resume 0 (.createPixOutAsync true (.ok ⟨"payment", "CREATED"⟩)), .resume 0 (.commit true),
        .start (withdrawalCall "3")] :=
  pix_out_at_most_once plainPython testSettings .empty _ (by decide +kernel)

def concurrentRequests : List (Op (Fresh × CreateWithdrawalOrderRequest) Answer) :=
  [.start (withdrawalCall "1"), .start (withdrawalCall "2"),
    .resume 0 (.dictLookup (.ok ())), .resume 0 (.dictLookup (.ok ())),
    .resume 0 (.createPixOutAsync true (.ok ⟨"payment-1", "CREATED"⟩)),
    .resume 0 (.createPixOutAsync true (.ok ⟨"payment-2", "CREATED"⟩)), .resume 0 (.commit true), .resume 0 (.commit true)]

def retriedRequest : List (Op (Fresh × CreateWithdrawalOrderRequest) Answer) :=
  [.start (withdrawalCall "1"), .resume 0 (.dictLookup (.ok ())), .resume 0 (.createPixOutAsync true (.error .other)),
    .start (withdrawalCall "2"), .resume 0 (.dictLookup (.ok ())),
    .resume 0 (.createPixOutAsync true (.ok ⟨"payment-2", "CREATED"⟩)), .resume 0 (.commit true)]

/-- Two requests at once, and a request sent again, both have the Pix Out executed twice. -/
theorem pix_out_executed_twice :
    ¬Throughout (withdrawals plainPython testSettings).step PaidOnce ⟨⟨.empty, []⟩, []⟩ concurrentRequests ∧
      ¬Throughout (withdrawals plainPython testSettings).step PaidOnce ⟨⟨.empty, []⟩, []⟩ retriedRequest :=
  ⟨fun h => absurd (h.last "withdrawal") (by decide +kernel), fun h => absurd (h.last "withdrawal") (by decide +kernel)⟩

end Examples
end CredBridge.PixService
