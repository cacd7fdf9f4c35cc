import CredBridge.PixService.OrderUpdates
import CredBridge.Theorems.OrderStatus

/-! # One outcome of an order

A webhook, a reconciliation and a cancellation decide on the copy of the order that they loaded, and write what they
decided whatever has become of the order since. An order has one outcome along a run exactly if each commit that
changes a status finds the order not terminal yet, or with the very status it writes and without a second
callback. The invariant: an order has one terminal callback at most, and none before it is terminal. -/

namespace CredBridge.PixService
open Concurrent Machine Result

def OutboxCallback.carriesTerminal (callback : OutboxCallback) : Bool :=
  match callback.payloadJson.field? "status" with
  | some (.string status) => decide (status ∈ terminalStatuses.map PixOrderStatus.value)
  | _ => false

def terminalCallbacks (db : Db) (pixOrderId : String) : Nat :=
  db.outboxCallbacks.countP fun callback => decide (callback.pixOrderId = some pixOrderId) && callback.carriesTerminal

/-- A step leaves terminal orders in their status, and an order with one terminal callback at most. -/
def OneOutcome (py : Python) (settings : Settings) (c : Config Db UpdateWaiting) (op : Op UpdateRequest UpdateAnswer) :
    Prop :=
  KeepsTerminal c.shared (next (orderUpdates py settings).step c op).shared ∧
    ∀ id, terminalCallbacks (next (orderUpdates py settings).step c op).shared id ≤ 1

/-- A commit that changes a status finds the order not terminal, or with the status that it writes, and then does not
    enqueue a second terminal callback. -/
def Change.LandsFirst (db : Db) (change : Change) : Prop :=
  change.order.status ≠ change.loaded.status → ∀ stored ∈ findOrderById db change.loaded.id,
    isTerminal stored.status = true →
      stored.status = change.order.status ∧ (change.callback.isSome → terminalCallbacks db stored.id = 0)

/-- Each commit that the database takes lands first. -/
def LandsFirst (db : Db) : UpdateWaiting → UpdateAnswer → Prop
  | .commit change, .database true => (db.commit change).toOption.isSome → change.LandsFirst db
  | _, _ => True

structure Db.Consistent (db : Db) : Prop where
  keyed : Table.Keyed PixOrder.id db.pixOrders
  once : ∀ id, terminalCallbacks db id ≤ 1
  terminal : ∀ order ∈ db.pixOrders, terminalCallbacks db order.id ≠ 0 → isTerminal order.status = true

structure Change.Sound (change : Change) : Prop where
  id : change.order.id = change.loaded.id
  unchanged : change.order.status = change.loaded.status → change.callback = none
  callback : ∀ callback ∈ change.callback, callback.pixOrderId = some change.loaded.id ∧
    callback.carriesTerminal = isTerminal change.order.status

def UpdateWaiting.Sound : UpdateWaiting → Prop
  | .commit change => change.Sound
  | _ => True

/-! ### What a call commits -/

section Sound
variable {py : Python} {settings : Settings} {fresh : Fresh} {order changed : PixOrder} {change : Change}

theorem carriesTerminal_callbackOf (fresh : Fresh) (order : PixOrder) :
    (callbackOf settings fresh order).carriesTerminal = isTerminal order.status := by
  have hfield : (callbackOf settings fresh order).payloadJson.field? "status" = some (.string order.status.value) := by
    simp [callbackOf, buildCallbackPayload, Json.field?]
  unfold OutboxCallback.carriesTerminal
  rw [hfield]
  cases order.status <;> decide

theorem Change.Sound.of_apply {eventType : String} {payload : Json} {newStatus : Option PixOrderStatus}
    {event : Option PixEvent} {callback : Option OutboxCallback}
    (happly : applyCorpxEvent py fresh order eventType payload = .ok (changed, newStatus))
    (hcallback : ∀ c ∈ callback, newStatus ≠ none ∧ c = callbackOf settings fresh changed) :
    Change.Sound ⟨order, changed, event, callback⟩ := by
  rcases applyCorpxEvent_inv happly with ⟨rfl, rfl⟩ | ⟨hsame, rfl, hallowed⟩
  · have hnone : callback = none := by
      cases callback with
      | none => rfl
      | some c => exact absurd rfl (hcallback c rfl).1
    subst hnone
    exact ⟨rfl, fun _ => rfl, nofun⟩
  · refine ⟨hsame.id, fun heq => ?_, fun c hc => ?_⟩
    · have heq : changed.status = order.status := heq
      rw [heq] at hallowed
      exact absurd hallowed (by cases order.status <;> decide)
    · rw [(hcallback c hc).2]
      exact ⟨congrArg some hsame.id, carriesTerminal_callbackOf fresh changed⟩

theorem Change.Sound.webhook {webhook : CorpXWebhook} (h : webhookChange py settings fresh webhook order = .ok change) :
    change.Sound := by
  obtain ⟨⟨changed, newStatus⟩, happly, h⟩ := bind_eq_ok.mp h
  cases pure_eq_ok.mp h
  refine .of_apply happly fun (c : OutboxCallback) hc => (?_ : newStatus ≠ none ∧ c = callbackOf settings fresh changed)
  obtain ⟨status, hstatus, rfl⟩ := Option.map_eq_some_iff.mp hc
  exact ⟨fun hnone => by simp [hnone] at hstatus, rfl⟩

theorem Change.Sound.reconcile {eventType : Option String} {payload : Json}
    (h : reconcileChange py settings fresh order eventType payload = .ok (some change)) : change.Sound := by
  cases eventType with
  | none => cases h
  | some eventType =>
    obtain ⟨⟨changed, newStatus⟩, happly, h⟩ := bind_eq_ok.mp h
    obtain ⟨status, hstatus, rfl⟩ := Option.map_eq_some_iff.mp (pure_eq_ok.mp h)
    exact .of_apply happly fun c hc => ⟨by simp [hstatus], (Option.some.inj hc).symm⟩

theorem Change.Sound.cancel : (cancelChange order).Sound := ⟨rfl, fun _ => rfl, nofun⟩

theorem UpdateWaiting.Commits.sound {waiting : UpdateWaiting} (h : waiting.Commits py settings) : waiting.Sound := by
  cases waiting with
  | commit change =>
    cases h with
    | webhook fresh event order h => exact .webhook h
    | reconciliation fresh order eventType payload h => exact .reconcile h
    | cancellation order hlive h => exact h ▸ .cancel
  | _ => trivial

theorem startUpdate_sound (py : Python) (settings : Settings) (request : UpdateRequest) (db : Db) :
    (startUpdate request db).1 = db ∧ ∀ waiting ∈ (startUpdate request db).2, waiting.Sound := by
  have hcommits : _ ∧ ∀ waiting ∈ (startUpdate request db).2, waiting.Commits py settings :=
    startUpdate_commits request db
  exact ⟨hcommits.1, fun waiting hwaiting => (hcommits.2 waiting hwaiting).sound⟩

end Sound

/-! ### What a commit does to the outcome -/

section Commit
variable {db db' : Db} {change : Change} {stored : PixOrder}

/-- The stored order takes the columns that the change wrote, and the callback joins the outbox. -/
structure Committed (db db' : Db) (change : Change) (stored : PixOrder) : Prop where
  find : findOrderById db change.loaded.id = some stored
  orders : db'.pixOrders =
    Table.modify PixOrder.id stored.id (fun _ => PixOrder.written change.loaded change.order stored) db.pixOrders
  outbox : db'.outboxCallbacks = db.outboxCallbacks ++ change.callback.toList

theorem commit_inv (h : db.commit change = .ok db') : ∃ stored, Committed db db' change stored := by
  obtain ⟨stored, hfind, -, -, rfl⟩ := Db.commit_inv h
  exact ⟨stored, hfind, rfl, rfl⟩

theorem status_of_changed (hchanged : change.order.status ≠ change.loaded.status) :
    (PixOrder.written change.loaded change.order stored).status = change.order.status := if_neg hchanged

theorem status_of_unchanged (hsame : change.order.status = change.loaded.status) :
    (PixOrder.written change.loaded change.order stored).status = stored.status := if_pos hsame

section Committed
variable (h : Committed db db' change stored)
include h

theorem Committed.loaded_id : stored.id = change.loaded.id := Table.key_of_find h.find

theorem Committed.mem : stored ∈ db.pixOrders := Table.mem_of_find h.find

theorem Committed.written_mem : PixOrder.written change.loaded change.order stored ∈ db'.pixOrders :=
  mem_written h.mem h.orders

/-- An order after the commit is the one that was written, or one with another id that was there before. -/
theorem Committed.cases {order : PixOrder} (horder : order ∈ db'.pixOrders) :
    order = PixOrder.written change.loaded change.order stored ∨ order ∈ db.pixOrders ∧ order.id ≠ stored.id := by
  rw [h.orders] at horder
  obtain ⟨x, hx, rfl⟩ := Table.mem_modify.mp horder
  by_cases hk : x.id = stored.id
  · rw [if_pos hk]
    exact .inl rfl
  · rw [if_neg hk]
    exact .inr ⟨hx, hk⟩

theorem Committed.terminalCallbacks_eq (hS : change.Sound) (id : String) :
    terminalCallbacks db' id = terminalCallbacks db id +
      if id = stored.id ∧ change.callback.isSome ∧ isTerminal change.order.status = true then 1 else 0 := by
  have hid := h.loaded_id
  unfold terminalCallbacks
  rw [h.outbox, List.countP_append]
  cases hcallback : change.callback with
  | none => simp
  | some callback =>
    obtain ⟨hpix, hcarries⟩ := hS.callback callback hcallback
    simp only [Option.toList_some, List.countP_singleton, hpix, hcarries, hid, Option.some.injEq, Option.isSome_some]
    by_cases heq : change.loaded.id = id
    · simp [heq]
    · simp [heq, Ne.symm heq]

/-- Where the status was written, the callback counts for the order only if the order is terminal now. -/
theorem Committed.le_one_of_landsFirst (hC : db.Consistent) (hS : change.Sound) (hlands : change.LandsFirst db) :
    ∀ id, terminalCallbacks db' id ≤ 1 := by
  intro id
  rw [h.terminalCallbacks_eq hS]
  split
  · next hadds =>
    obtain ⟨rfl, hsome, hterm⟩ := hadds
    have hchanged : change.order.status ≠ change.loaded.status := fun heq => by
      rw [hS.unchanged heq] at hsome
      cases hsome
    have hzero : terminalCallbacks db stored.id = 0 := by
      by_contra hne
      have hstored := hC.terminal stored h.mem hne
      exact hne ((hlands hchanged stored h.find hstored).2 hsome)
    rw [hzero]
  · exact hC.once id

theorem Committed.keepsTerminal (hlands : change.LandsFirst db) (hC : db.Consistent) : KeepsTerminal db db' := by
  intro order horder hterm
  by_cases hk : order.id = stored.id
  · obtain rfl := hC.keyed.eq_of_key horder h.mem hk
    refine ⟨_, h.written_mem, rfl, ?_⟩
    by_cases heq : change.order.status = change.loaded.status
    · exact status_of_unchanged heq
    · exact (status_of_changed heq).trans (hlands heq order h.find hterm).1.symm
  · refine ⟨order, ?_, rfl, rfl⟩
    rw [h.orders]
    exact Table.mem_modify.mpr ⟨order, horder, if_neg hk⟩

theorem Committed.consistent (hC : db.Consistent) (hS : change.Sound) (hlands : change.LandsFirst db) :
    db'.Consistent where
  keyed := by
    rw [h.orders]
    exact hC.keyed.modify fun _ _ => rfl
  once := h.le_one_of_landsFirst hC hS hlands
  terminal order horder hne := by
    rw [h.terminalCallbacks_eq hS] at hne
    rcases h.cases horder with rfl | ⟨hmem, hk⟩
    · by_cases heq : change.order.status = change.loaded.status
      · rw [status_of_unchanged heq]
        have hnone : ¬(change.callback.isSome = true) := by simp [hS.unchanged heq]
        rw [if_neg fun hadds => hnone hadds.2.1] at hne
        exact hC.terminal stored h.mem hne
      · rw [status_of_changed heq]
        by_contra hlive
        rw [if_neg fun hadds => hlive hadds.2.2] at hne
        have hterm := hC.terminal stored h.mem hne
        exact hlive ((hlands heq stored h.find hterm).1 ▸ hterm)
    · rw [if_neg fun hadds => hk hadds.1] at hne
      exact hC.terminal order hmem hne

theorem Committed.landsFirst (hS : change.Sound) (hkeeps : KeepsTerminal db db')
    (honce : ∀ id, terminalCallbacks db' id ≤ 1) : change.LandsFirst db := by
  intro hchanged order hfind hterm
  obtain rfl : stored = order := Option.some.inj (h.find.symm.trans hfind)
  have hstatus : stored.status = change.order.status := by
    obtain ⟨order', horder', hid, hstatus⟩ := hkeeps stored h.mem hterm
    rcases h.cases horder' with rfl | ⟨-, hk⟩
    · exact hstatus.symm.trans (status_of_changed hchanged)
    · exact absurd hid hk
  refine ⟨hstatus, fun hsome => ?_⟩
  have hle := honce stored.id
  rw [h.terminalCallbacks_eq hS, if_pos ⟨rfl, hsome, hstatus ▸ hterm⟩] at hle
  omega

end Committed
end Commit

/-! ### Runs -/

section Runs
variable {py : Python} {settings : Settings} {c : Config Db UpdateWaiting} {op : Op UpdateRequest UpdateAnswer}
  {ops : List (Op UpdateRequest UpdateAnswer)}

/-- What became of the tables, and what the call waits for then. -/
inductive Resumed (py : Python) (settings : Settings) (waiting : UpdateWaiting) (answer : UpdateAnswer) (db : Db)
    (r : Db × Option UpdateWaiting) : Prop where
  | unchanged (hdb : r.1 = db) (hlands : LandsFirst db waiting answer)
  | committed (change : Change) (hwaiting : waiting = .commit change) (hanswer : answer = .database true)
      (hcommit : db.commit change = .ok r.1)

theorem resumeUpdate_resumed (waiting : UpdateWaiting) (answer : UpdateAnswer) (db : Db) :
    Resumed py settings waiting answer db (resumeUpdate py settings waiting answer db) := by
  unfold resumeUpdate
  split
  · exact .unchanged rfl trivial
  · exact .unchanged rfl trivial
  · exact .unchanged rfl trivial
  · exact .unchanged rfl trivial
  · next change reached =>
    cases reached with
    | false => exact .unchanged rfl trivial
    | true =>
      cases hcommit : db.commit change with
      | error e =>
        refine .unchanged (by simp [Except.toOption]) fun htaken => ?_
        rw [hcommit] at htaken
        cases htaken
      | ok db' => exact .committed change rfl rfl (by simp [hcommit, Except.toOption])
  · next hnot =>
    refine .unchanged rfl ?_
    unfold LandsFirst
    split
    · exact absurd rfl (hnot _ _ rfl)
    · trivial

theorem resumeUpdate_sound {waiting : UpdateWaiting} (hS : waiting.Sound) (answer : UpdateAnswer) (db : Db) :
    ∀ waiting' ∈ (resumeUpdate py settings waiting answer db).2, waiting'.Sound := by
  intro waiting' hwaiting
  cases resumeUpdate_next waiting' hwaiting with
  | waits => exact hS
  | searches => trivial
  | found fresh event key keys order change hfind h => exact .webhook h
  | deposit fresh order eventType payload change h => exact .reconcile h
  | withdrawal fresh order eventType payload change h => exact .reconcile h
  | cancels order => exact .cancel

theorem outline : Outline (orderUpdates py settings) (fun _ _ => True) LandsFirst Db.Consistent
    (fun _ => UpdateWaiting.Sound) (fun _ _ => True) where
  start request db hC _ := by
    obtain ⟨hdb, hsound⟩ := startUpdate_sound py settings request db
    show Db.Consistent (startUpdate request db).1 ∧ True ∧ _
    rw [hdb]
    exact ⟨hC, trivial, hsound⟩
  resume waiting answer db hC hS hlands := by
    refine ⟨?_, trivial, resumeUpdate_sound hS answer db⟩
    show Db.Consistent (resumeUpdate py settings waiting answer db).1
    have hresumed : Resumed py settings waiting answer db _ := resumeUpdate_resumed waiting answer db
    rcases hresumed with ⟨hdb, -⟩ | ⟨change, rfl, rfl, hcommit⟩
    · rw [hdb]
      exact hC
    · obtain ⟨stored, hcommitted⟩ := commit_inv hcommit
      exact hcommitted.consistent hC hS (hlands (toOption_isSome.mpr ⟨_, hcommit⟩))
  stable _ _ _ _ hS := hS

theorem oneOutcome_of_unchanged {db db' : Db} (hC : db.Consistent) (h : db' = db) :
    KeepsTerminal db db' ∧ ∀ id, terminalCallbacks db' id ≤ 1 := by
  rw [h]
  exact ⟨.refl, hC.once⟩

/-- Orders have one outcome along exactly the runs in which every commit lands first. -/
theorem one_outcome_iff_lands_first {db : Db} (hdb : db.Consistent) :
    Along (orderUpdates py settings).step (OneOutcome py settings) ⟨db, []⟩ ops ↔
      Along (orderUpdates py settings).step (Allows (fun _ _ => True) LandsFirst) ⟨db, []⟩ ops := by
  have hc : Holds Db.Consistent (fun _ => UpdateWaiting.Sound) ⟨db, []⟩ := ⟨hdb, List.forall_mem_nil _⟩
  refine outline.along_iff (Q := fun db db' => KeepsTerminal db db' ∧ ∀ id, terminalCallbacks db' id ≤ 1) ?_ ?_ ?_ hc
  · exact fun db hC => ⟨.refl, hC.once⟩
  · intro request db hC
    exact oneOutcome_of_unchanged hC (startUpdate_sound py settings request db).1
  · intro waiting answer db hC hS
    have hresumed : Resumed py settings waiting answer db _ := resumeUpdate_resumed waiting answer db
    rcases hresumed with ⟨hsame, hlands⟩ | ⟨change, rfl, rfl, hcommit⟩
    · exact iff_of_true (oneOutcome_of_unchanged hC hsame) hlands
    · obtain ⟨stored, hcommitted⟩ := commit_inv hcommit
      constructor
      · exact fun h _ => hcommitted.landsFirst hS h.1 h.2
      · intro hlands
        have hfirst := hlands (toOption_isSome.mpr ⟨_, hcommit⟩)
        exact ⟨hcommitted.keepsTerminal hfirst hC, (hcommitted.consistent hC hS hfirst).once⟩

end Runs

/-! ### Two webhooks of one withdrawal -/

section Examples

instance (db db' : Db) : Decidable (KeepsTerminal db db') :=
  inferInstanceAs (Decidable (∀ o ∈ db.pixOrders, isTerminal o.status = true →
    ∃ o' ∈ db'.pixOrders, o'.id = o.id ∧ o'.status = o.status))

instance (db : Db) (change : Change) : Decidable (change.LandsFirst db) :=
  inferInstanceAs (Decidable (_ ≠ _ → ∀ stored ∈ findOrderById db change.loaded.id, isTerminal stored.status = true →
    stored.status = change.order.status ∧ (_ → _ = 0)))

instance decidableLandsFirst (db : Db) : (waiting : UpdateWaiting) → (answer : UpdateAnswer) →
    Decidable (LandsFirst db waiting answer)
  | .commit change, .database true => inferInstanceAs (Decidable (_ → change.LandsFirst db))
  | .commit _, .database false | .commit _, .lookupQr _ | .commit _, .lookupPayment _ | .commit _, .cancelQr _ =>
    instDecidableTrue
  | .findOrder .., _ | .lookupQr .., _ | .lookupPayment .., _ | .cancelQr .., _ => instDecidableTrue

theorem Db.Consistent.of_no_callbacks {db : Db} (hkeyed : Table.Keyed PixOrder.id db.pixOrders)
    (hnone : db.outboxCallbacks = []) : db.Consistent := by
  have hzero : ∀ id, terminalCallbacks db id = 0 := fun id => by rw [terminalCallbacks, hnone, List.countP_nil]
  exact ⟨hkeyed, fun id => by rw [hzero id]; exact Nat.zero_le 1, fun order _ hne => absurd (hzero order.id) hne⟩

def oneWithdrawal : Db :=
  { Db.empty with
    pixOrders := [withdrawalOrder testSettings ⟨"w", "1", "", 0, 0⟩ withdrawalRequest 5000 ⟨"payment", "CREATED"⟩] }

def outEvent (eventId eventType : String) : CorpXWebhook :=
  ⟨eventId, eventType, .object [("identifier", .string "cbw_1")], .object []⟩

def twoWebhooks : List (Op UpdateRequest UpdateAnswer) :=
  [.start (.webhook ⟨"", "", "1", 1, 1⟩ (outEvent "completed" "pix.out.completed")),
    .start (.webhook ⟨"", "", "2", 1, 1⟩ (outEvent "failed" "pix.out.failed")), .resume 0 (.database true),
    .resume 0 (.database true), .resume 0 (.database true), .resume 0 (.database true)]

theorem oneWithdrawal_consistent : oneWithdrawal.Consistent := .of_no_callbacks (List.nodup_singleton _) rfl

/-- The second webhook comes when the first one is over. -/
theorem one_outcome_iff_lands_first_in_turn :
    Along (orderUpdates plainPython testSettings).step (OneOutcome plainPython testSettings) ⟨oneWithdrawal, []⟩
      [.start (.webhook ⟨"", "", "1", 1, 1⟩ (outEvent "completed" "pix.out.completed")), .resume 0 (.database true),
        .resume 0 (.database true), .start (.webhook ⟨"", "", "2", 1, 1⟩ (outEvent "failed" "pix.out.failed")),
        .resume 0 (.database true), .resume 0 (.database true)] :=
  (one_outcome_iff_lands_first oneWithdrawal_consistent).mpr (by decide +kernel)

/-- Both webhooks load the withdrawal before either of them commits. -/
theorem second_webhook_overwrites :
    ¬Along (orderUpdates plainPython testSettings).step (OneOutcome plainPython testSettings) ⟨oneWithdrawal, []⟩
      twoWebhooks :=
  fun h => absurd h.2.2.2.2.2.1.1 (by decide +kernel)

end Examples
end CredBridge.PixService
