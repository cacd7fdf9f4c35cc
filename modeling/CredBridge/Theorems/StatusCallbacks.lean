import CredBridge.PixService.Service
import CredBridge.Theorems.OneOutcome

/-! # Statuses and callbacks

A commit that gives an order a new status enqueues one callback, which reports the order as the session sees it. That is
the order as committed where nobody else has written to it since it was loaded. Where somebody has, the callback may
report what was not committed, or a status that the order had before; and a cancellation enqueues none. The invariant:
the order that a session holds is in the table, and differs from its row only in what an event writes. -/

namespace CredBridge.PixService
open Concurrent Machine Result

/-! ### Rows of orders -/

/-- The rows differ in what an event writes only. -/
def SameRow (order order' : PixOrder) : Prop :=
  order' = { order with
    status := order'.status
    endToEndId := order'.endToEndId
    confirmedAt := order'.confirmedAt
    failedAt := order'.failedAt
    failureReason := order'.failureReason }

/-- The columns that an event writes besides the status. -/
def PixOrder.outcome (order : PixOrder) : Option String × Option DateTime × Option DateTime × Option String :=
  (order.endToEndId, order.confirmedAt, order.failedAt, order.failureReason)

/-- The order is in the table, whatever events have written in it since. -/
def Service.HasRow (s : Service) (order : PixOrder) : Prop :=
  ∃ stored, findOrderById s.tables.db order.id = some stored ∧ SameRow order stored

/-- The orders stay. -/
def KeepsRows (s s' : Service) : Prop := ∀ order, s.HasRow order → s'.HasRow order

section Rows
variable {py : Python} {settings : Settings} {fresh : Fresh} {env : ServiceEnv} {s s' : Service}
  {order order' stored loaded changed : PixOrder}

theorem SameRow.refl (order : PixOrder) : SameRow order order := rfl

theorem SameRow.trans {order'' : PixOrder} (h : SameRow order order') (h' : SameRow order' order'') :
    SameRow order order'' := by
  unfold SameRow at h h' ⊢
  rw [h', h]

theorem SameRow.symm (h : SameRow order order') : SameRow order' order := by
  unfold SameRow at h ⊢
  rw [h]

theorem SameRow.id (h : SameRow order order') : order'.id = order.id := by
  rw [h]

theorem sameRow_written : SameRow stored (PixOrder.written loaded changed stored) := rfl

theorem sameRow_apply {eventType : String} {payload : Json} {newStatus : Option PixOrderStatus}
    (h : applyCorpxEvent py fresh order eventType payload = .ok (changed, newStatus)) : SameRow order changed := by
  rw [← applyCorpxEvent_written h]
  exact sameRow_written

/-- Rows that agree in what an event writes too are the same. -/
theorem SameRow.eq (h : SameRow order order') (hstatus : order'.status = order.status) (houtcome : order'.outcome = order.outcome) :
    order' = order := by
  unfold PixOrder.outcome at houtcome
  simp only [Prod.mk.injEq] at houtcome
  obtain ⟨hendToEndId, hconfirmedAt, hfailedAt, hfailureReason⟩ := houtcome
  rw [h, hstatus, hendToEndId, hconfirmedAt, hfailedAt, hfailureReason]

theorem KeepsRows.refl (s : Service) : KeepsRows s s := fun _ h => h

theorem KeepsRows.of_orders (h : s'.tables.db.pixOrders = s.tables.db.pixOrders) : KeepsRows s s' := by
  rintro order ⟨stored, hfind, hsame⟩
  refine ⟨stored, ?_, hsame⟩
  unfold findOrderById
  rwa [h]

theorem KeepsRows.of_append (h : s'.tables.db.pixOrders = s.tables.db.pixOrders ++ [order']) : KeepsRows s s' := by
  rintro order ⟨stored, hfind, hsame⟩
  refine ⟨stored, ?_, hsame⟩
  unfold findOrderById
  rw [h]
  exact Table.find_append hfind

theorem KeepsRows.of_created {tables : Tables} (h : Created s.tables tables) : KeepsRows s { s with tables } := by
  rcases h with ⟨_, _, -, rfl⟩ | ⟨_, -, -, rfl⟩ | rfl
  · exact .of_append rfl
  · exact .of_orders rfl
  · exact .of_orders rfl

theorem KeepsRows.of_commit {db : Db} {change : Change} (hcommit : s.tables.db.commit change = .ok db)
    (h : s'.tables.db = db) : KeepsRows s s' := by
  obtain ⟨row, hrow, -, -, hdb⟩ := Db.commit_inv hcommit
  rintro order ⟨stored, hfind, hsame⟩
  have hfind' : findOrderById s'.tables.db order.id =
      (findOrderById s.tables.db order.id).map fun o =>
        if o.id = row.id then PixOrder.written change.loaded change.order row else o := by
    rw [h, hdb]
    exact Table.find_modify fun _ _ => rfl
  rw [hfind] at hfind'
  refine ⟨_, hfind', ?_⟩
  dsimp only
  split
  · next hid =>
    have hrowId : row.id = change.loaded.id := Table.key_of_find hrow
    have horderId : stored.id = order.id := Table.key_of_find hfind
    unfold findOrderById at hfind hrow
    rw [← horderId, hid, hrowId, hrow] at hfind
    obtain rfl := Option.some.inj hfind
    exact hsame.trans sameRow_written
  · exact hsame

theorem keepsRows_start (request : ServiceRequest) : KeepsRows s (startService env request s).1 := by
  rcases startService_started request with ⟨_, _, tables, -, hcreate, hs'⟩ | ⟨_, _, _, -, -, hs'⟩ | ⟨now, -, hs'⟩ | hs'
  · rw [hs']
    exact .of_created (create_created hcreate)
  · rw [hs']
    exact .of_orders rfl
  · rw [hs']
    exact .of_orders rfl
  · rw [hs']
    exact .refl s

theorem keepsRows_resume (call : ServiceCall) (answer : ServiceAnswer) : KeepsRows s (resumeService env call answer s).1 := by
  have hresumed : ServiceResumed env call answer s _ := resumeService_resumed call answer
  rcases hresumed with ⟨_, _, _, -, -, -, hs'⟩ | ⟨_, change, db, -, hcommit, hs'⟩ | ⟨_, change, tables, -, -, hcommit, hs'⟩ |
    ⟨batch, answer', -, -, hs'⟩ | ⟨-, hs'⟩
  · rw [hs']
    exact .of_orders rfl
  · rw [hs']
    exact .of_commit hcommit rfl
  · rw [hs']
    exact .of_orders (commitCollection_frame hcommit).1
  · rw [hs']
    exact .of_orders rfl
  · rw [hs']
    exact .refl s

end Rows

/-! ### What a session decides -/

/-- A session leaves its order as it was, gives it another status and reports it, or cancels it. -/
inductive Change.Decides (settings : Settings) (change : Change) : Prop where
  | nothing (horder : change.order = change.loaded) (hcallback : change.callback = none)
  | outcome (fresh : Fresh) (hstatus : change.order.status ≠ change.loaded.status)
      (hmem : change.order.status ∈ callbackStatuses)
      (hcallback : change.callback = some (callbackOf settings fresh change.order))
  | cancellation (hstatus : change.order.status ≠ change.loaded.status) (hcanceled : change.order.status = .canceled)
      (hcallback : change.callback = none)

section Decisions
variable {py : Python} {settings : Settings} {fresh : Fresh} {order changed : PixOrder} {change : Change}

theorem corpxEventToStatus_mem {eventType : String} {status : PixOrderStatus}
    (h : corpxEventToStatus eventType = some status) : status ∈ callbackStatuses := by
  unfold corpxEventToStatus at h
  repeat' split at h
  all_goals cases h; try decide

theorem applyCorpxEvent_status {eventType : String} {payload : Json} {status : PixOrderStatus}
    (h : applyCorpxEvent py fresh order eventType payload = .ok (changed, some status)) :
    changed.status = status ∧ changed.status ≠ order.status ∧ changed.status ∈ callbackStatuses := by
  obtain ⟨hevent, happlied⟩ := applyCorpxEvent_applied h
  refine ⟨happlied.status, fun heq => ?_, happlied.status ▸ corpxEventToStatus_mem hevent⟩
  have hallowed := happlied.allowed
  rw [← happlied.status, heq] at hallowed
  exact absurd hallowed (by cases order.status <;> decide)

theorem Commits.decides (h : Commits py settings change) : change.Decides settings ∧ SameRow change.loaded change.order := by
  rcases h with ⟨fresh, event, order, h⟩ | ⟨fresh, order, eventType, payload, h⟩ | ⟨order, hlive, rfl⟩
  · obtain ⟨⟨changed, newStatus⟩, happly, h⟩ := bind_eq_ok.mp h
    cases pure_eq_ok.mp h
    refine ⟨?_, sameRow_apply happly⟩
    cases newStatus with
    | none => exact .nothing (applyCorpxEvent_ignored happly).1 rfl
    | some status =>
      obtain ⟨hstatus, hchanged, hmem⟩ := applyCorpxEvent_status happly
      exact .outcome fresh hchanged hmem (by simp [← hstatus, hmem])
  · cases eventType with
    | none => cases h
    | some eventType =>
      obtain ⟨⟨changed, newStatus⟩, happly, h⟩ := bind_eq_ok.mp h
      obtain ⟨status, rfl, rfl⟩ := Option.map_eq_some_iff.mp (pure_eq_ok.mp h)
      obtain ⟨-, hchanged, hmem⟩ := applyCorpxEvent_status happly
      exact ⟨.outcome fresh hchanged hmem rfl, sameRow_apply happly⟩
  · refine ⟨.cancellation (fun heq => ?_) rfl rfl, rfl⟩
    have hcanceled : .canceled = order.status := heq
    rw [← hcanceled] at hlive
    cases hlive

end Decisions

/-! ### Changes and callbacks -/

/-- The order that a callback reports. One of a collection reports none. -/
def OutboxCallback.reportedOrder (callback : OutboxCallback) : Option String :=
  match callback.payloadJson.field? "pixOrderId" with
  | some (.string id) => some id
  | _ => none

/-- The callbacks of an order that a step enqueues. -/
def enqueued (s s' : Service) (id : String) : List OutboxCallback :=
  s'.outbox.filter fun callback =>
    decide (callback.reportedOrder = some id ∧ callback.eventId ∉ s.outbox.map OutboxCallback.eventId)

structure StatusChange (s s' : Service) (order order' : PixOrder) : Prop where
  before : order ∈ s.tables.db.pixOrders
  after : order' ∈ s'.tables.db.pixOrders
  id : order'.id = order.id
  changed : order'.status ≠ order.status
  reported : order'.status ∈ callbackStatuses

/-- The changes of a step and the callbacks that it enqueues are one to one, and each callback reports its order as it is
    after the step. -/
structure Corresponds (s s' : Service) : Prop where
  enqueues : ∀ order order', StatusChange s s' order order' → ∃ callback, enqueued s s' order.id = [callback] ∧
    callback.payloadJson = buildCallbackPayload order' callback.eventId
  changes : ∀ id, enqueued s s' id ≠ [] → ∃ order order', order.id = id ∧ StatusChange s s' order order'

/-- A commit with a callback gives the order a status that it does not have, and finds in it what the session loaded
    wherever it writes nothing; one that cancels finds it canceled. -/
def Change.LandsAsLoaded (db : Db) (change : Change) : Prop :=
  ∀ stored ∈ findOrderById db change.loaded.id,
    if change.callback.isSome then
      stored.status ≠ change.order.status ∧
        (PixOrder.written change.loaded change.order stored).outcome = change.order.outcome
    else change.order.status ≠ change.loaded.status → stored.status = change.order.status

def LandsAsLoaded (s : Service) : ServiceCall → ServiceAnswer → Prop
  | .order _ (.commit change), .update (.database true) =>
    (s.tables.db.commit change).toOption.isSome → change.LandsAsLoaded s.tables.db
  | _, _ => True

section Correspondence
variable {settings : Settings} {s s' : Service} {order order' stored : PixOrder} {change : Change} {id : String}

theorem reportedOrder_callbackOf (fresh : Fresh) (order : PixOrder) :
    (callbackOf settings fresh order).reportedOrder = some order.id := by
  simp [OutboxCallback.reportedOrder, callbackOf, buildCallbackPayload, Json.field?]

theorem reportedOrder_collectionCallback (fresh : Fresh) (collection : CollectionOrder) :
    (collectionCallback settings fresh collection).reportedOrder = none := by
  simp [OutboxCallback.reportedOrder, collectionCallback, Json.field?]

theorem enqueued_of_eventIds (h : s'.outbox.map OutboxCallback.eventId = s.outbox.map OutboxCallback.eventId) (id : String) :
    enqueued s s' id = [] := by
  refine List.filter_eq_nil_iff.mpr fun callback hmem => ?_
  have hold : callback.eventId ∈ s.outbox.map OutboxCallback.eventId := h ▸ List.mem_map_of_mem hmem
  simp [hold]

theorem enqueued_append {added : Option OutboxCallback} (h : s'.outbox = s.outbox ++ added.toList)
    (hnew : ∀ callback ∈ added, callback.eventId ∉ s.outbox.map OutboxCallback.eventId) (id : String) :
    enqueued s s' id = added.toList.filter fun callback => decide (callback.reportedOrder = some id) := by
  have hold : enqueued s s id = [] := enqueued_of_eventIds rfl id
  unfold enqueued at hold ⊢
  rw [h, List.filter_append, hold, List.nil_append]
  refine List.filter_congr fun callback hmem => ?_
  simp [hnew callback (Option.mem_toList.mp hmem)]

/-- A step that changes no order's status and enqueues nothing for one. -/
theorem Corresponds.of_still (hstill : ∀ order ∈ s.tables.db.pixOrders, ∀ order' ∈ s'.tables.db.pixOrders,
    order'.id = order.id → order'.status = order.status) (hnone : ∀ id, enqueued s s' id = []) : Corresponds s s' where
  enqueues order order' h := absurd (hstill order h.before order' h.after h.id) h.changed
  changes id h := absurd (hnone id) h

def Service.OrdersKeyed (s : Service) : Prop := Table.Keyed PixOrder.id s.tables.db.pixOrders

theorem Corresponds.of_orders (hkeyed : s.OrdersKeyed) (horders : s'.tables.db.pixOrders = s.tables.db.pixOrders)
    (hnone : ∀ id, enqueued s s' id = []) : Corresponds s s' := by
  refine .of_still (fun order horder order' horder' hid => ?_) hnone
  rw [horders] at horder'
  rw [hkeyed.eq_of_key horder' horder hid]

/-- What a commit changes is the status of its order. -/
theorem Committed.statusChange_iff {db : Db} (h : Committed s.tables.db db change stored) (hkeyed : s.OrdersKeyed)
    (hs' : s'.tables.db = db) : StatusChange s s' order order' ↔ order = stored ∧
      order' = PixOrder.written change.loaded change.order stored ∧ order'.status ≠ stored.status ∧
        order'.status ∈ callbackStatuses := by
  constructor
  · intro hchange
    have hafter := hchange.after
    rw [hs'] at hafter
    rcases h.cases hafter with rfl | ⟨hold, hid⟩
    · obtain rfl := hkeyed.eq_of_key h.mem hchange.before hchange.id
      exact ⟨rfl, rfl, hchange.changed, hchange.reported⟩
    · exact absurd (congrArg PixOrder.status (hkeyed.eq_of_key hold hchange.before hchange.id)) hchange.changed
  · rintro ⟨rfl, rfl, hchanged, hreported⟩
    exact ⟨h.mem, hs' ▸ h.written_mem, rfl, hchanged, hreported⟩

theorem optional_inj {a b : Option String} (h : optional a = optional b) : a = b := by
  cases a <;> cases b <;> simp_all [optional]

theorem isoformat_inj {a b : Option DateTime} (h : isoformat a = isoformat b) : a = b := by
  cases a <;> cases b <;> simp_all [isoformat]

theorem buildCallbackPayload_inj {eventId eventId' : String}
    (h : buildCallbackPayload order eventId = buildCallbackPayload order' eventId') : order.outcome = order'.outcome := by
  simp only [buildCallbackPayload, Json.object.injEq, List.cons.injEq, Prod.mk.injEq, true_and] at h
  obtain ⟨-, -, -, -, -, -, -, -, -, -, hendToEndId, hconfirmedAt, hfailedAt, hfailureReason, -⟩ := h
  unfold PixOrder.outcome
  rw [optional_inj hendToEndId, isoformat_inj hconfirmedAt, isoformat_inj hfailedAt, optional_inj hfailureReason]

section Commit
variable {db : Db} (h : Committed s.tables.db db change stored) (hkeyed : s.OrdersKeyed) (hs' : s'.tables.db = db)
include h hkeyed hs'

theorem Committed.corresponds_nothing (horder : change.order = change.loaded) (hcallback : change.callback = none) :
    Corresponds s s' := by
  have henqueued : ∀ id, enqueued s s' id = [] := enqueued_of_eventIds (by simp [Service.outbox, hs', h.outbox, hcallback])
  refine ⟨fun order order' hchange => ?_, fun id hne => absurd (henqueued id) hne⟩
  obtain ⟨rfl, rfl, hchanged, -⟩ := (h.statusChange_iff hkeyed hs').mp hchange
  exact absurd (status_of_unchanged (by rw [horder])) hchanged

theorem Committed.corresponds_cancellation (hstatus : change.order.status ≠ change.loaded.status)
    (hcanceled : change.order.status = .canceled) (hcallback : change.callback = none) :
    Corresponds s s' ↔ stored.status = change.order.status := by
  have henqueued : ∀ id, enqueued s s' id = [] := enqueued_of_eventIds (by simp [Service.outbox, hs', h.outbox, hcallback])
  have hwritten : (PixOrder.written change.loaded change.order stored).status = change.order.status :=
    status_of_changed hstatus
  constructor
  · intro hcorresponds
    by_contra hne
    have hchange : StatusChange s s' stored (PixOrder.written change.loaded change.order stored) :=
      (h.statusChange_iff hkeyed hs').mpr ⟨rfl, rfl, by rw [hwritten]; exact Ne.symm hne, by rw [hwritten, hcanceled]; decide⟩
    obtain ⟨callback, hsingle, -⟩ := hcorresponds.enqueues _ _ hchange
    cases (henqueued stored.id).symm.trans hsingle
  · intro hsame
    refine ⟨fun order order' hchange => ?_, fun id hne => absurd (henqueued id) hne⟩
    obtain ⟨rfl, rfl, hchanged, -⟩ := (h.statusChange_iff hkeyed hs').mp hchange
    exact absurd (hwritten.trans hsame.symm) hchanged

theorem Committed.corresponds_outcome {fresh : Fresh}
    (hnew : ∀ callback ∈ change.callback, callback.eventId ∉ s.outbox.map OutboxCallback.eventId)
    (hrow : SameRow change.loaded stored) (hsame : SameRow change.loaded change.order)
    (hstatus : change.order.status ≠ change.loaded.status) (hmem : change.order.status ∈ callbackStatuses)
    (hcallback : change.callback = some (callbackOf settings fresh change.order)) :
    Corresponds s s' ↔ stored.status ≠ change.order.status ∧
      (PixOrder.written change.loaded change.order stored).outcome = change.order.outcome := by
  have hid : change.order.id = stored.id := hsame.id.trans hrow.id.symm
  have henqueued : ∀ id, enqueued s s' id = if id = stored.id then [callbackOf settings fresh change.order] else [] := by
    intro id
    rw [enqueued_append (by unfold Service.outbox; rw [hs', h.outbox]) hnew, hcallback, Option.toList_some,
      List.filter_singleton, reportedOrder_callbackOf, hid]
    simp [eq_comm]
  have hwritten : (PixOrder.written change.loaded change.order stored).status = change.order.status :=
    status_of_changed hstatus
  have hwrittenRow : SameRow change.order (PixOrder.written change.loaded change.order stored) :=
    (hsame.symm.trans hrow).trans sameRow_written
  constructor
  · intro hcorresponds
    obtain ⟨order, order', -, hchange⟩ := hcorresponds.changes stored.id (by rw [henqueued, if_pos rfl]; exact nofun)
    obtain ⟨rfl, rfl, hchanged, -⟩ := (h.statusChange_iff hkeyed hs').mp hchange
    obtain ⟨callback, hsingle, hpayload⟩ := hcorresponds.enqueues _ _ hchange
    rw [henqueued, if_pos rfl] at hsingle
    cases hsingle
    exact ⟨fun heq => hchanged (hwritten.trans heq.symm), (buildCallbackPayload_inj hpayload).symm⟩
  · rintro ⟨hchanged, houtcome⟩
    have hcommitted := hwrittenRow.eq hwritten houtcome
    constructor
    · intro order order' hchange
      obtain ⟨rfl, rfl, -, -⟩ := (h.statusChange_iff hkeyed hs').mp hchange
      refine ⟨_, (henqueued _).trans (if_pos rfl), ?_⟩
      rw [hcommitted]
      rfl
    · intro id hne
      rw [henqueued] at hne
      have hstored : stored.id = id := by
        by_contra hother
        exact hne (if_neg (Ne.symm hother))
      refine ⟨stored, _, hstored, (h.statusChange_iff hkeyed hs').mpr ⟨rfl, rfl, ?_, ?_⟩⟩
      · rw [hwritten]
        exact Ne.symm hchanged
      · rw [hwritten]
        exact hmem

/-- A commit corresponds to its callback exactly if it lands on the order as the session loaded it. -/
theorem Committed.corresponds_iff
    (hnew : ∀ callback ∈ change.callback, callback.eventId ∉ s.outbox.map OutboxCallback.eventId)
    (hrow : SameRow change.loaded stored) (hsame : SameRow change.loaded change.order) (hdecides : change.Decides settings) :
    Corresponds s s' ↔ change.LandsAsLoaded s.tables.db := by
  have hlands : change.LandsAsLoaded s.tables.db ↔
      if change.callback.isSome then stored.status ≠ change.order.status ∧
          (PixOrder.written change.loaded change.order stored).outcome = change.order.outcome
        else change.order.status ≠ change.loaded.status → stored.status = change.order.status := by
    unfold Change.LandsAsLoaded
    rw [h.find]
    simp
  rw [hlands]
  rcases hdecides with ⟨horder, hcallback⟩ | ⟨fresh, hstatus, hmem, hcallback⟩ | ⟨hstatus, hcanceled, hcallback⟩
  · refine iff_of_true (h.corresponds_nothing hkeyed hs' horder hcallback) ?_
    rw [hcallback, horder]
    simp
  · rw [h.corresponds_outcome hkeyed hs' hnew hrow hsame hstatus hmem hcallback, hcallback]
    rfl
  · rw [h.corresponds_cancellation hkeyed hs' hstatus hcanceled hcallback, hcallback]
    exact ⟨fun hstored _ => hstored, fun hstored => hstored hstatus⟩

end Commit
end Correspondence

/-! ### Steps -/

/-- The order that a session loaded. -/
def UpdateWaiting.order? : UpdateWaiting → Option PixOrder
  | .findOrder .. => none
  | .lookupQr _ order | .lookupPayment _ order | .cancelQr order => some order
  | .commit change => some change.loaded

section Loaded
variable {py : Python} {settings : Settings} {fresh : Fresh} {order : PixOrder} {change : Change} {db : Db}

theorem webhookChange_loaded {event : CorpXWebhook} (h : webhookChange py settings fresh event order = .ok change) :
    change.loaded = order := by
  obtain ⟨_, -, h⟩ := bind_eq_ok.mp h
  cases pure_eq_ok.mp h
  rfl

theorem reconcileChange_loaded {eventType : Option String} {payload : Json}
    (h : reconcileChange py settings fresh order eventType payload = .ok (some change)) : change.loaded = order := by
  cases eventType with
  | none => cases h
  | some eventType =>
    obtain ⟨_, -, h⟩ := bind_eq_ok.mp h
    obtain ⟨_, -, rfl⟩ := Option.map_eq_some_iff.mp (pure_eq_ok.mp h)
    rfl

theorem startUpdate_order {request : UpdateRequest} {waiting : UpdateWaiting}
    (h : (startUpdate request db).2 = some waiting) : ∀ order ∈ waiting.order?, order ∈ db.pixOrders := by
  intro loaded hloaded
  cases request with
  | webhook fresh event =>
    simp only [startUpdate] at h
    split at h
    · cases h
      cases hloaded
    · cases h
  | reconcileOrder fresh pixOrderId =>
    simp only [startUpdate] at h
    split at h
    · cases h
    · next order hfind =>
      have hmem := Table.mem_of_find (Option.filter_eq_some_iff.mp hfind).1
      split at h <;> · cases h; cases hloaded; exact hmem
  | cancelOrder pixOrderId =>
    simp only [startUpdate] at h
    split at h
    · cases h
    · next order hfind =>
      have hmem := Table.mem_of_find (Option.filter_eq_some_iff.mp hfind).1
      split at h <;> · cases h; cases hloaded; exact hmem

theorem findOrderByKey_mem {key : OrderKey} (h : findOrderByKey db key = .ok (some order)) : order ∈ db.pixOrders := by
  have hone : ∀ rows : List PixOrder, oneOrNone rows = .ok (some order) → order ∈ rows := by
    intro rows hrows
    unfold oneOrNone at hrows
    split at hrows
    · cases hrows
    · cases hrows
      exact List.mem_singleton_self _
    · cases hrows
  cases key with
  | identifier value | txid value | paymentId value =>
    obtain ⟨_, -, h⟩ := bind_eq_ok.mp h
    exact List.mem_of_mem_filter (hone _ h)

theorem resumeUpdate_order {waiting next : UpdateWaiting} {answer : UpdateAnswer}
    (h : (resumeUpdate py settings waiting answer db).2 = some next) :
    ∀ order ∈ next.order?, order ∈ waiting.order? ∨ order ∈ db.pixOrders := by
  intro loaded hloaded
  cases resumeUpdate_next next (Option.mem_def.mpr h) with
  | waits => exact .inl hloaded
  | searches => cases hloaded
  | found fresh event key keys order change hfind hchange =>
    cases hloaded
    exact .inr (webhookChange_loaded hchange ▸ findOrderByKey_mem hfind)
  | deposit fresh order eventType payload change hchange | withdrawal fresh order eventType payload change hchange =>
    cases hloaded
    exact .inl (congrArg some (reconcileChange_loaded hchange).symm)
  | cancels order =>
    cases hloaded
    exact .inl rfl

end Loaded

/-- A call on an order commits what the service makes of it, and the order that it loaded is in the table. -/
def ServiceCall.Loaded (env : ServiceEnv) (s : Service) (call : ServiceCall) : Prop :=
  call.Made env.settings ∧ ∀ webhook waiting, call = .order webhook waiting →
    waiting.Commits env.py env.settings ∧ ∀ order ∈ waiting.order?, s.HasRow order

section Steps
variable {env : ServiceEnv} {s : Service}

theorem Service.HasRow.of_mem {order : PixOrder} (hkeyed : s.OrdersKeyed) (hmem : order ∈ s.tables.db.pixOrders) : s.HasRow order :=
  ⟨order, (Table.find_eq_some hkeyed).mpr ⟨hmem, rfl⟩, .refl order⟩

theorem Service.OrdersKeyed.start (hkeyed : s.OrdersKeyed) (request : ServiceRequest) :
    (startService env request s).1.OrdersKeyed := by
  rcases startService_started request with ⟨_, _, tables, -, hcreate, hs'⟩ | ⟨_, _, _, -, -, hs'⟩ | ⟨now, -, hs'⟩ | hs'
  · rw [hs']
    rcases create_orders hcreate with horders | ⟨order, hnew, horders⟩
    · exact (congrArg (Table.Keyed PixOrder.id) horders).mpr hkeyed
    · exact (congrArg (Table.Keyed PixOrder.id) horders).mpr (hkeyed.append (Table.find_eq_none.mp hnew))
  · rw [hs']
    exact hkeyed
  · rw [hs']
    exact hkeyed
  · rw [hs']
    exact hkeyed

theorem Service.OrdersKeyed.resume (hkeyed : s.OrdersKeyed) (call : ServiceCall) (answer : ServiceAnswer) :
    (resumeService env call answer s).1.OrdersKeyed := by
  have hresumed : ServiceResumed env call answer s _ := resumeService_resumed call answer
  rcases hresumed with ⟨_, _, _, -, -, -, hs'⟩ | ⟨_, change, db, -, hcommit, hs'⟩ | ⟨_, change, tables, -, -, hcommit, hs'⟩ |
    ⟨batch, answer', -, -, hs'⟩ | ⟨-, hs'⟩
  · rw [hs']
    exact hkeyed
  · obtain ⟨stored, -, -, -, rfl⟩ := Db.commit_inv hcommit
    rw [hs']
    exact hkeyed.modify fun _ _ => rfl
  · rw [hs']
    exact (congrArg (Table.Keyed PixOrder.id) (commitCollection_frame hcommit).1).mpr hkeyed
  · rw [hs']
    exact hkeyed
  · rw [hs']
    exact hkeyed

theorem startService_corresponds (hkeyed : s.OrdersKeyed) (request : ServiceRequest) :
    Corresponds s (startService env request s).1 := by
  rcases startService_started request with ⟨_, _, tables, -, hcreate, hs'⟩ | ⟨_, _, _, -, -, hs'⟩ | ⟨now, -, hs'⟩ | hs'
  · rw [hs']
    have henqueued : ∀ id, enqueued s { s with tables } id = [] :=
      enqueued_of_eventIds (congrArg (List.map OutboxCallback.eventId) (create_created hcreate).outbox)
    rcases create_orders hcreate with horders | ⟨new, hnew, horders⟩
    · exact .of_orders hkeyed horders henqueued
    · refine .of_still (fun order horder order' horder' hid => ?_) henqueued
      have horder' : order' ∈ s.tables.db.pixOrders ++ [new] := horders ▸ horder'
      rcases List.mem_append.mp horder' with hold | hadded
      · rw [hkeyed.eq_of_key hold horder hid]
      · rw [List.mem_singleton.mp hadded] at hid
        exact absurd (hid ▸ List.mem_map_of_mem horder) (Table.find_eq_none.mp hnew)
  · rw [hs']
    exact .of_orders hkeyed rfl (enqueued_of_eventIds rfl)
  · rw [hs']
    exact .of_orders hkeyed rfl (enqueued_of_eventIds (congrArg _ (startSender_outbox now)))
  · rw [hs']
    exact .of_orders hkeyed rfl (enqueued_of_eventIds rfl)

theorem resumeBatch_eventIds (batch : Batch) (answer : SenderAnswer) :
    (resumeBatch env batch answer s).1.outbox.map OutboxCallback.eventId = s.outbox.map OutboxCallback.eventId := by
  have hresumed : SenderResumed env.text env.outbox batch answer s.sender _ := resumeSender_resumed batch answer s.sender
  show (resumeSender env.text env.outbox batch answer s.sender).1.outbox.map OutboxCallback.eventId = _
  rcases hresumed with ⟨attempts, -, -, hr⟩ | ⟨_, _, _, _, -, -, hr⟩ | ⟨_, -, hr⟩ | ⟨_, -, -, hr⟩ | ⟨_, _, _, -, -, hr⟩
  · rw [hr]
    exact map_eventId_writeAll attempts s.outbox
  · rw [hr, sendNext_outbox]
    rfl
  · rw [hr]
    rfl
  · rw [hr]
    rfl
  · rw [hr]
    rfl

/-- A commit of a collection changes no order, and what it enqueues reports none. -/
theorem corresponds_collection (hkeyed : s.OrdersKeyed) {change : CollectionChange} {tables : Tables}
    {webhook : Option String} (hmade : change.Made env.settings) (hcommit : s.tables.commitCollection change = .ok tables) :
    Corresponds s ({ s with tables }.answer webhook .ok) := by
  obtain ⟨stored, hwritten⟩ := commitCollection_inv hcommit
  obtain ⟨hnew, hdb⟩ := insertIf_callback_inv hwritten.db
  refine .of_orders hkeyed ?_ fun id => ?_
  · show tables.db.pixOrders = _
    rw [hdb]
  · have houtbox : ({ s with tables }.answer webhook .ok).outbox = s.outbox ++ change.callback.toList :=
      congrArg Db.outboxCallbacks hdb
    rw [enqueued_append houtbox fun callback hmem => Table.find_eq_none.mp (hnew callback hmem)]
    refine List.filter_eq_nil_iff.mpr fun callback hmem => ?_
    obtain ⟨fresh, rfl⟩ := hmade.callbackOf callback (Option.mem_toList.mp hmem)
    simp [reportedOrder_collectionCallback]

theorem Corresponds.of_tables (hkeyed : s.OrdersKeyed) {s' : Service} (h : s'.tables = s.tables) : Corresponds s s' := by
  refine .of_orders hkeyed (by rw [h]) (enqueued_of_eventIds ?_)
  unfold Service.outbox
  rw [h]

/-- The tables change with a commit only. -/
theorem resumeOrder_tables {webhook : Option String} {waiting : UpdateWaiting} {answer : UpdateAnswer}
    (hnot : ∀ change db, waiting = .commit change → answer = .database true → s.tables.db.commit change ≠ .ok db) :
    (resumeOrder env webhook waiting answer s).1.tables = s.tables := by
  unfold resumeOrder
  split
  · next fresh event reached =>
    cases reached with
    | false => rfl
    | true =>
      have hshared : (afterFindCollection env fresh event s).1 = s ∨ _ := afterFindCollection_shared fresh event s
      rcases hshared with h | ⟨-, h⟩
      · exact congrArg Service.tables h
      · exact (congrArg Service.tables h).trans rfl
  · next change reached =>
    cases reached with
    | false => rfl
    | true =>
      cases hcommit : s.tables.db.commit change with
      | error e => rfl
      | ok db => exact absurd hcommit (hnot change db rfl rfl)
  · next waiting answer _ hcommit =>
    exact congrArg Service.tables (congrArg s.setDb (resumeUpdate_db fun change reached => hcommit change reached))

theorem resumeService_corresponds_iff (hkeyed : s.OrdersKeyed) {call : ServiceCall} (hloaded : call.Loaded env s)
    (answer : ServiceAnswer) : Corresponds s (resumeService env call answer s).1 ↔ LandsAsLoaded s call answer := by
  obtain ⟨hmade, horder⟩ := hloaded
  by_cases hcommitting : ∃ webhook change db, call = .order webhook (.commit change) ∧ answer = .update (.database true) ∧
      s.tables.db.commit change = .ok db
  · obtain ⟨webhook, change, db, rfl, rfl, hcommit⟩ := hcommitting
    obtain ⟨hcommits, hrows⟩ := horder webhook (.commit change) rfl
    have hs' : (resumeService env (.order webhook (.commit change)) (.update (.database true)) s).1 =
        (s.setDb db).answer webhook .ok := by
      simp only [resumeService, resumeOrder, hcommit]
      rfl
    obtain ⟨stored, hcommitted⟩ := commit_inv hcommit
    obtain ⟨_, -, -, hnew, -⟩ := Db.commit_inv hcommit
    obtain ⟨row, hfind, hrow⟩ := hrows change.loaded rfl
    obtain rfl := Option.some.inj (hcommitted.find.symm.trans hfind)
    obtain ⟨hdecides, hsame⟩ := hcommits.decides
    rw [hs', hcommitted.corresponds_iff hkeyed rfl (fun callback hmem => Table.find_eq_none.mp (hnew callback hmem))
      hrow hsame hdecides]
    exact ⟨fun h _ => h, fun h => h (by rw [hcommit]; rfl)⟩
  · refine iff_of_true ?_ ?_
    · unfold resumeService
      split
      · next webhook waiting answer =>
        refine .of_tables hkeyed (resumeOrder_tables fun change db hwaiting hanswer hcommit => ?_)
        exact hcommitting ⟨webhook, change, db, by rw [hwaiting], by rw [hanswer], hcommit⟩
      · exact .of_tables hkeyed rfl
      · next webhook change reached =>
        cases reached with
        | false => exact .of_tables hkeyed rfl
        | true =>
          cases hcommit : s.tables.commitCollection change with
          | error e => exact .of_tables hkeyed rfl
          | ok tables => exact corresponds_collection hkeyed hmade hcommit
      · next batch answer => exact .of_orders hkeyed rfl (enqueued_of_eventIds (resumeBatch_eventIds batch answer))
      · exact .of_tables hkeyed rfl
    · unfold LandsAsLoaded
      split
      · next webhook change =>
        intro htaken
        obtain ⟨db, hcommit⟩ := toOption_isSome.mp htaken
        exact absurd ⟨webhook, change, db, rfl, rfl, hcommit⟩ hcommitting
      · trivial

end Steps

/-! ### Runs -/

section Runs
variable {env : ServiceEnv} {ops : List (Op ServiceRequest ServiceAnswer)}

theorem loadedOutline {A : Service → ServiceCall → ServiceAnswer → Prop} :
    Outline (pixService env) (fun _ _ => True) A Service.OrdersKeyed (fun s call => call.Loaded env s) KeepsRows where
  start request s hkeyed _ := by
    refine ⟨hkeyed.start request, keepsRows_start request, fun call hcall => ⟨startService_made request s call hcall, ?_⟩⟩
    rintro webhook waiting rfl
    rcases startService_next hcall with ⟨update, waiting, hwaiting, hcall⟩ | ⟨_, _, -, hcall⟩ | ⟨_, _, -, -, hcall⟩
    · cases hcall
      refine ⟨(startUpdate_commits update s.tables.db).2 waiting hwaiting, fun order horder => ?_⟩
      exact keepsRows_start request order (.of_mem hkeyed (startUpdate_order hwaiting order horder))
    · cases hcall
    · cases hcall
  resume call answer s hkeyed hloaded _ := by
    refine ⟨hkeyed.resume call answer, keepsRows_resume call answer, fun next hnext => ?_⟩
    refine ⟨resumeService_made hloaded.1 answer s next hnext, ?_⟩
    rintro webhook waiting rfl
    have hkeeps : KeepsRows s (resumeService env call answer s).1 := keepsRows_resume call answer
    rcases resumeService_next hnext with ⟨_, before, _, answer', rfl, hwaiting, hsame⟩ |
      ⟨_, _, _, _, _, -, -, -, -, hother⟩ | ⟨_, -, hother⟩ | ⟨_, _, _, -, -, hother⟩ | rfl
    · cases hsame
      obtain ⟨hcommits, hrows⟩ := hloaded.2 webhook before rfl
      refine ⟨resumeUpdate_commits hcommits answer' s.tables.db waiting hwaiting, fun order horder => hkeeps order ?_⟩
      rcases resumeUpdate_order hwaiting order horder with hold | hmem
      · exact hrows order hold
      · exact .of_mem hkeyed hmem
    · cases hother
    · cases hother
    · cases hother
    · obtain ⟨hcommits, hrows⟩ := hloaded.2 webhook waiting rfl
      exact ⟨hcommits, fun order horder => hkeeps order (hrows order horder)⟩
  stable s s' call hkeeps hloaded :=
    ⟨hloaded.1, fun webhook waiting hcall =>
      ⟨(hloaded.2 webhook waiting hcall).1, fun order horder => hkeeps order ((hloaded.2 webhook waiting hcall).2 order horder)⟩⟩

end Runs

/-- What a step that corresponds does, in numbers. -/
theorem Corresponds.count {s s' : Service} (h : Corresponds s s') :
    (∀ order ∈ s.tables.db.pixOrders, ∀ order' ∈ s'.tables.db.pixOrders, order'.id = order.id →
      order'.status ≠ order.status → order'.status ∈ callbackStatuses → (enqueued s s' order.id).length = 1) ∧
    ∀ callback ∈ s'.outbox, ∀ id ∈ callback.reportedOrder, (enqueued s s' id).length ≠ 0 →
      ∃ order ∈ s.tables.db.pixOrders, ∃ order' ∈ s'.tables.db.pixOrders, order'.id = order.id ∧
        order'.status ≠ order.status := by
  constructor
  · intro order horder order' horder' hid hchanged hreported
    obtain ⟨callback, hsingle, -⟩ := h.enqueues order order' ⟨horder, horder', hid, hchanged, hreported⟩
    rw [hsingle, List.length_singleton]
  · intro _ _ id _ hne
    obtain ⟨order, order', -, hchange⟩ := h.changes id fun hnil => hne (by rw [hnil, List.length_nil])
    exact ⟨order, hchange.before, order', hchange.after, hchange.id, hchange.changed⟩

section Examples

instance (db : Db) (change : Change) : Decidable (change.LandsAsLoaded db) :=
  inferInstanceAs (Decidable (∀ stored ∈ findOrderById db change.loaded.id,
    if change.callback.isSome then
      stored.status ≠ change.order.status ∧
        (PixOrder.written change.loaded change.order stored).outcome = change.order.outcome
    else change.order.status ≠ change.loaded.status → stored.status = change.order.status))

instance decidableLandsAsLoaded (s : Service) : (call : ServiceCall) → (answer : ServiceAnswer) →
    Decidable (LandsAsLoaded s call answer)
  | .order _ (.commit change), .update (.database true) => inferInstanceAs (Decidable (_ → change.LandsAsLoaded s.tables.db))
  | .order _ (.commit _), .update (.database false) | .order _ (.commit _), .update (.lookupQr _)
  | .order _ (.commit _), .update (.lookupPayment _) | .order _ (.commit _), .update (.cancelQr _)
  | .order _ (.commit _), .sender _ => instDecidableTrue
  | .order _ (.findOrder ..), _ | .order _ (.lookupQr ..), _ | .order _ (.lookupPayment ..), _
  | .order _ (.cancelQr _), _ => instDecidableTrue
  | .cancelCollectionQr _, _ | .commitCollection .., _ | .batch _, _ => instDecidableTrue

def canceledDeposit : List (Op ServiceRequest ServiceAnswer) :=
  [newDeposit "1", .start (.cancelOrder "1"), .resume 0 (.update (.cancelQr (.ok ()))), .resume 0 (.update (.database true))]

def reconciledTwice : List (Op ServiceRequest ServiceAnswer) :=
  [newDeposit "1", .start (.reconcileOrder ⟨"", "", "1", 1, 1⟩ "1"), .start (.reconcileOrder ⟨"", "", "2", 1, 1⟩ "1"),
    .resume 0 (.update (.lookupQr (.ok ⟨"paid", none, none, none⟩))),
    .resume 0 (.update (.lookupQr (.ok ⟨"paid", none, none, none⟩))),
    .resume 0 (.update (.database true)), .resume 0 (.update (.database true))]

end Examples
end CredBridge.PixService
