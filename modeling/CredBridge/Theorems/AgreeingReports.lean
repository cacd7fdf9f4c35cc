import CredBridge.Theorems.StatusCallbacks

/-! # Reports of one outcome

The provider reports what finally becomes of an order by webhooks, and answers it to reconciliations. The first report
whose values the order can store decides: the order takes its status and its end-to-end id, and one callback is enqueued.
Reports before it raise and change nothing, and those after it find the order terminal. So webhooks and reconciliations
agree wherever a report can be stored, and the first that can be tells the payment's end-to-end id. -/

namespace CredBridge.PixService
open Concurrent Machine Result

/-! ### Orders of the service

An order that is not terminal awaits the outcome of its type, and fits in its columns, whatever calls were in flight. -/

structure PixOrder.Standing (order : PixOrder) : Prop where
  status : StatusOfType order
  storable : order.storable = true

structure Service.Standing (s : Service) : Prop where
  keyed : s.OrdersKeyed
  orders : ∀ order ∈ s.tables.db.pixOrders, order.Standing

/-- The order that a call loaded had a status of its type. -/
def ServiceCall.Standing (env : ServiceEnv) (s : Service) (call : ServiceCall) : Prop :=
  call.Loaded env s ∧ ∀ webhook waiting, call = .order webhook waiting → ∀ order ∈ waiting.order?, StatusOfType order

section Standing
variable {env : ServiceEnv} {py : Python} {settings : Settings} {db db' : Db} {s : Service} {order stored : PixOrder}
  {change : Change}

theorem persistOrder_standing {eventType : String} {payload : Json}
    (h : persistOrder db order eventType payload = .ok db') (hstarts : Starts order)
    (hdb : ∀ o ∈ db.pixOrders, o.Standing) : ∀ o ∈ db'.pixOrders, o.Standing := by
  obtain ⟨-, _, -, hdb'⟩ := persistOrder_inv h
  obtain ⟨db₁, hinsert, -⟩ := bind_eq_ok.mp h
  obtain ⟨-, hinsert⟩ := throwIf_bind_eq_ok.mp hinsert
  obtain ⟨hstorable, -⟩ := throwIf_bind_eq_ok.mp hinsert
  intro o ho
  rw [hdb'] at ho
  rcases List.mem_append.mp ho with ho | ho
  · exact hdb o ho
  · rw [List.mem_singleton.mp ho]
    exact ⟨.starts hstarts, Bool.not_eq_false _ ▸ hstorable⟩

theorem create_standing {fresh : Fresh} {tables tables' : Tables} {creation : Creation}
    (h : create env fresh tables creation = .ok tables') (htables : ∀ o ∈ tables.db.pixOrders, o.Standing) :
    ∀ o ∈ tables'.db.pixOrders, o.Standing := by
  cases creation with
  | deposit request qr =>
    obtain ⟨db, hdb, h⟩ := bind_eq_ok.mp h
    cases pure_eq_ok.mp h
    rcases createDeposit_inv hdb with rfl | ⟨_, _, hpersist⟩
    · exact htables
    · exact persistOrder_standing hpersist (.inl ⟨rfl, rfl⟩) htables
  | withdrawal request dict out =>
    obtain ⟨db, hdb, h⟩ := bind_eq_ok.mp h
    cases pure_eq_ok.mp h
    rcases createWithdrawal_inv hdb with rfl | ⟨_, _, hpersist⟩
    · exact htables
    · exact persistOrder_standing hpersist (.inr ⟨rfl, rfl⟩) htables
  | collection request qr =>
    obtain ⟨_, -, h⟩ := bind_eq_ok.mp h
    obtain ⟨_, -, h⟩ := bind_eq_ok.mp h
    obtain ⟨-, hinserted⟩ := insertCollection_inv h
    rw [hinserted]
    exact htables

theorem Commits.statusOfType (h : Commits py settings change) (hloaded : StatusOfType change.loaded) :
    StatusOfType change.order := by
  have hmoved : ∀ {fresh : Fresh} {o changed : PixOrder} {eventType : String} {payload : Json}
      {newStatus : Option PixOrderStatus}, applyCorpxEvent py fresh o eventType payload = .ok (changed, newStatus) →
      StatusOfType o → StatusOfType changed := by
    intro fresh o changed eventType payload newStatus happly ho
    rcases applyCorpxEvent_inv happly with ⟨rfl, -⟩ | ⟨hsame, -, hallowed⟩
    · exact ho
    · exact ho.moved hsame hallowed
  rcases h with ⟨fresh, event, o, h⟩ | ⟨fresh, o, eventType, payload, h⟩ | ⟨o, hlive, rfl⟩
  · obtain ⟨⟨changed, newStatus⟩, happly, h⟩ := bind_eq_ok.mp h
    cases pure_eq_ok.mp h
    exact hmoved happly hloaded
  · cases eventType with
    | none => cases h
    | some eventType =>
      obtain ⟨⟨changed, newStatus⟩, happly, h⟩ := bind_eq_ok.mp h
      obtain ⟨status, -, rfl⟩ := Option.map_eq_some_iff.mp (pure_eq_ok.mp h)
      exact hmoved happly hloaded
  · exact .inl rfl

theorem StatusOfType.of_eq {o o' : PixOrder} (h : StatusOfType o) (hstatus : o'.status = o.status) (htype : o'.type = o.type) :
    StatusOfType o' := by
  unfold StatusOfType at h ⊢
  rwa [hstatus, htype]

/-- A commit leaves the orders with statuses of their types, where the one that was loaded had one. -/
theorem commit_standing (hcommit : db.commit change = .ok db') (hdb : ∀ o ∈ db.pixOrders, o.Standing)
    (hloaded : StatusOfType change.loaded) (hcommits : Commits py settings change)
    (hrow : ∀ stored ∈ findOrderById db change.loaded.id, SameRow change.loaded stored) :
    ∀ o ∈ db'.pixOrders, o.Standing := by
  obtain ⟨stored, hfind, -, -, hdb'⟩ := Db.commit_inv hcommit
  obtain ⟨db₁, hwrite, -⟩ := bind_eq_ok.mp hcommit
  obtain ⟨stored', hfind', hupdate⟩ := orThrow_bind_eq_ok.mp hwrite
  obtain rfl : stored' = stored := Option.some.inj (hfind'.symm.trans hfind)
  have hstored := hdb stored' (Table.mem_of_find hfind)
  have htype : change.order.type = stored'.type := by
    rw [hcommits.decides.2, hrow stored' hfind]
  have hstatus : StatusOfType (PixOrder.written change.loaded change.order stored') := by
    by_cases hsame : change.order.status = change.loaded.status
    · exact hstored.status.of_eq (status_of_unchanged hsame) rfl
    · exact (hcommits.statusOfType hloaded).of_eq (status_of_changed hsame) htype.symm
  intro o ho
  rw [hdb'] at ho
  obtain ⟨x, hx, rfl⟩ := Table.mem_modify.mp ho
  split
  · exact ⟨hstatus, updateOrder_storable hupdate⟩
  · exact hdb x hx

theorem startService_standing (hs : s.Standing) (request : ServiceRequest) :
    ∀ order ∈ (startService env request s).1.tables.db.pixOrders, order.Standing := by
  rcases startService_started request with ⟨_, _, tables, -, hcreate, hs'⟩ | ⟨_, _, _, -, -, hs'⟩ | ⟨now, -, hs'⟩ | hs'
  · rw [hs']
    exact create_standing hcreate hs.orders
  · rw [hs']
    exact hs.orders
  · rw [hs']
    exact hs.orders
  · rw [hs']
    exact hs.orders

theorem resumeService_standing (hs : s.Standing) {call : ServiceCall} (hcall : call.Standing env s) (answer : ServiceAnswer) :
    ∀ order ∈ (resumeService env call answer s).1.tables.db.pixOrders, order.Standing := by
  have hresumed : ServiceResumed env call answer s _ := resumeService_resumed call answer
  rcases hresumed with ⟨_, _, _, -, -, -, hs'⟩ | ⟨webhook, change, db, hwaits, hcommit, hs'⟩ |
    ⟨_, change, tables, -, -, hcommit, hs'⟩ | ⟨batch, answer', -, -, hs'⟩ | ⟨-, hs'⟩
  · rw [hs']
    exact hs.orders
  · rw [hs']
    obtain ⟨hcommits, hrows⟩ := hcall.1.2 webhook _ hwaits
    refine commit_standing hcommit hs.orders (hcall.2 webhook _ hwaits change.loaded rfl) hcommits ?_
    intro stored hstored
    obtain ⟨row, hfind, hrow⟩ := hrows change.loaded rfl
    obtain rfl : row = stored := Option.some.inj (hfind.symm.trans hstored)
    exact hrow
  · rw [hs']
    exact fun order horder => hs.orders order ((commitCollection_frame hcommit).1 ▸ horder)
  · rw [hs']
    exact hs.orders
  · rw [hs']
    exact hs.orders

theorem standingOutline : Outline (pixService env) (fun _ _ => True) (fun _ _ _ => True) Service.Standing
    (fun s call => call.Standing env s) KeepsRows where
  start request s hs _ := by
    obtain ⟨hkeyed, hkeeps, hcalls⟩ := loadedOutline.start (A := fun _ _ _ => True) request s hs.keyed trivial
    refine ⟨⟨hkeyed, startService_standing hs request⟩, hkeeps, fun call hcall => ⟨hcalls call hcall, ?_⟩⟩
    rintro webhook waiting rfl order horder
    rcases startService_next hcall with ⟨update, waiting, hwaiting, hcall⟩ | ⟨_, _, -, hcall⟩ | ⟨_, _, -, -, hcall⟩
    · cases hcall
      exact (hs.orders order (startUpdate_order hwaiting order horder)).status
    · cases hcall
    · cases hcall
  resume call answer s hs hcall _ := by
    obtain ⟨hkeyed, hkeeps, hcalls⟩ := loadedOutline.resume (A := fun _ _ _ => True) call answer s hs.keyed hcall.1 trivial
    refine ⟨⟨hkeyed, resumeService_standing hs hcall answer⟩, hkeeps, fun next hnext => ⟨hcalls next hnext, ?_⟩⟩
    rintro webhook waiting rfl order horder
    rcases resumeService_next hnext with ⟨_, before, _, answer', rfl, hwaiting, hsame⟩ |
      ⟨_, _, _, _, _, -, -, -, -, hother⟩ | ⟨_, -, hother⟩ | ⟨_, _, _, -, -, hother⟩ | rfl
    · cases hsame
      rcases resumeUpdate_order hwaiting order horder with hold | hmem
      · exact hcall.2 webhook before rfl order hold
      · exact (hs.orders order hmem).status
    · cases hother
    · cases hother
    · cases hother
    · exact hcall.2 webhook waiting rfl order horder
  stable s s' call hkeeps hcall := ⟨loadedOutline.stable (A := fun _ _ _ => True) s s' call hkeeps hcall.1, hcall.2⟩

theorem standing_of_run (ops : List (Op ServiceRequest ServiceAnswer)) :
    (run (pixService env).step ⟨.empty, []⟩ ops).shared.Standing := by
  have hempty : Service.empty.Standing := ⟨.nil, List.forall_mem_nil _⟩
  have hthroughout : Throughout (pixService env).step (Holds Service.Standing fun s call => call.Standing env s)
      ⟨.empty, []⟩ ops :=
    standingOutline.throughout ⟨hempty, List.forall_mem_nil _⟩
      (along_allows (fun _ _ => trivial) (fun _ _ _ => trivial) _ ops)
  exact hthroughout.last.1

end Standing

/-! ### Outcomes and their reports -/

/-- What finally becomes of an order at the provider; a payment has an end-to-end id there. -/
inductive Outcome where
  | paid (endToEndId : Option String)
  | expired
  | cancelled
  | completed (endToEndId : Option String)
  | failed

def Outcome.type : Outcome → PixOrderType
  | .paid _ | .expired | .cancelled => .deposit
  | .completed _ | .failed => .withdrawal

def Outcome.status : Outcome → PixOrderStatus
  | .paid _ | .completed _ => .confirmed
  | .expired => .expired
  | .cancelled => .canceled
  | .failed => .failed

/-- The events that stand for the outcome. -/
def Outcome.eventTypes : Outcome → List String
  | .paid _ => ["qrcode.paid", "pix.in.completed"]
  | .expired => ["qrcode.expired"]
  | .cancelled => ["qrcode.cancelled"]
  | .completed _ => ["pix.out.completed"]
  | .failed => ["pix.out.failed"]

def Outcome.endToEndId : Outcome → Option String
  | .paid endToEndId | .completed endToEndId => endToEndId
  | .expired | .cancelled | .failed => none

/-- The value, if there is one, is a text for a column of this width. -/
def fits (width : Nat) (value : Option Json) : Bool :=
  value.all fun v => (columnText v).toOption.any (fitsColumn width)

/-- The values of the payload that the outcome reads can be read and stored. -/
def Outcome.storable (py : Python) (payload : Json) : Outcome → Bool
  | .paid _ | .completed _ =>
    fits 255 (firstTruthy payload "endToEndId" "end_to_end_id") &&
      (firstTruthy payload "paidAmount" "amount").all fun amount => (py.float amount).toOption.isSome
  | .failed => fits 512 (firstTruthy payload "reason" "rejectReason")
  | .expired | .cancelled => true

/-- The end-to-end id that the payload tells, where the outcome is a payment. -/
def Outcome.told (payload : Json) : Outcome → Option String
  | .paid _ | .completed _ => (firstTruthy payload "endToEndId" "end_to_end_id").bind fun v => (columnText v).toOption
  | .expired | .cancelled | .failed => none

inductive Report where
  | webhook (fresh : Fresh) (webhook : CorpXWebhook)
  | reconcileOrder (fresh : Fresh) (lookupQr : Except PyError QrCodeStatus) (lookupPayment : Except PyError PaymentStatus)

def Report.fresh : Report → Fresh
  | .webhook fresh _ | .reconcileOrder fresh _ _ => fresh

section Report
variable (py : Python) (settings : Settings)

def qrPayload (qrStatus : QrCodeStatus) : Json :=
  .object [("endToEndId", optional qrStatus.endToEndId), ("paidAmount", optionalNumber qrStatus.paidAmount),
    ("transactionId", optional qrStatus.transactionId), ("source", .string "reconciliation_lookup")]

def paymentPayload (paymentStatus : PaymentStatus) : Json :=
  .object [("endToEndId", optional paymentStatus.endToEndId), ("amount", optionalNumber paymentStatus.amount),
    ("source", .string "reconciliation_lookup")]

/-- The event that a report brings to an order, with its payload. -/
def Report.event (order : PixOrder) : Report → Option (String × Json)
  | .webhook _ received => some (received.eventType, received.data)
  | .reconcileOrder _ lookupQr lookupPayment =>
    match order.type with
    | .deposit => lookupQr.toOption.bind fun qrStatus =>
        (qrStatusToEvent (py.lower qrStatus.status)).map fun eventType => (eventType, qrPayload qrStatus)
    | .withdrawal => lookupPayment.toOption.bind fun paymentStatus =>
        (paymentStatusToEvent (py.upper paymentStatus.status)).map fun eventType => (eventType, paymentPayload paymentStatus)

/-- The event id and the payload of a webhook fit in their columns. -/
def Report.recordable : Report → Bool
  | .webhook _ received => fitsColumn 255 received.eventId && received.rawPayload.plain
  | .reconcileOrder .. => true

def Report.storable (order : PixOrder) (outcome : Outcome) (r : Report) : Bool :=
  r.recordable && (r.event py order).any fun event => outcome.storable py event.2

/-- The report tells the outcome's end-to-end id, or there is none and the order keeps its own. -/
def Report.Tells (order : PixOrder) (outcome : Outcome) (r : Report) : Prop :=
  ∀ event ∈ r.event py order, (outcome.told event.2).or order.endToEndId = outcome.endToEndId.or order.endToEndId

/-- The report tells the outcome of the order. The ids that are drawn for it are new, and a webhook has a new event id and
    names the order. -/
structure Report.Of (db : Db) (order : PixOrder) (outcome : Outcome) (r : Report) : Prop where
  event : ∃ event ∈ r.event py order, event.1 ∈ outcome.eventTypes
  fresh : Table.find OutboxCallback.eventId r.fresh.callbackEventId db.outboxCallbacks = none
  webhook : ∀ fresh received, r = .webhook fresh received →
    Table.find PixEvent.eventId received.eventId db.pixEvents = none ∧
      orderKeys received >>= findOrderForEvent db = .ok (some order)

/-- A report is handled alone. -/
def report (pixOrderId : String) (db : Db) : Report → Except PyError Db
  | .webhook fresh webhook => processWebhookEvent py settings fresh db webhook
  | .reconcileOrder fresh lookupQr lookupPayment => reconcileOrder py settings fresh db pixOrderId lookupQr lookupPayment

end Report

/-- The order has the outcome's status and end-to-end id, and one callback of it has been enqueued. -/
structure Settled (db db' : Db) (order : PixOrder) (outcome : Outcome) : Prop where
  row : ∃ order' ∈ findOrderById db' order.id, order'.status = outcome.status ∧
    order'.endToEndId = outcome.endToEndId.or order.endToEndId
  callback : ∃ callback, db'.outboxCallbacks = db.outboxCallbacks ++ [callback] ∧ callback.pixOrderId = some order.id

/-! ### What an order takes -/

section Apply
variable {py : Python} {settings : Settings} {fresh : Fresh} {order order' : PixOrder} {outcome : Outcome}
  {eventType : String} {payload : Json}

theorem corpxEventToStatus_outcome (h : eventType ∈ outcome.eventTypes) :
    corpxEventToStatus eventType = some outcome.status := by
  cases outcome with
  | paid _ =>
    rcases List.mem_cons.mp h with rfl | h
    · rfl
    · rw [List.mem_singleton.mp h]
      rfl
  | expired | cancelled | completed _ | failed =>
    rw [List.mem_singleton.mp h]
    rfl

theorem eventType_fits (h : eventType ∈ outcome.eventTypes) : fitsColumn 100 eventType = true := by
  cases outcome with
  | paid _ =>
    rcases List.mem_cons.mp h with rfl | h
    · decide
    · rw [List.mem_singleton.mp h]
      decide
  | expired | cancelled | completed _ | failed =>
    rw [List.mem_singleton.mp h]
    decide

theorem StatusOfType.allowed (h : StatusOfType order) (hlive : isTerminal order.status = false)
    (htype : order.type = outcome.type) : isTransitionAllowed order.status outcome.status = true := by
  rcases h with hterm | ⟨-, hs⟩ | ⟨hwithdrawal, hs | hs⟩
  · rw [hterm] at hlive
    cases hlive
  · rw [hs]
    cases outcome <;> rfl
  · rw [hwithdrawal] at htype
    rw [hs]
    cases outcome <;> first | rfl | cases htype
  · rw [hwithdrawal] at htype
    rw [hs]
    cases outcome <;> first | rfl | cases htype

/-- Of the columns that an event writes two are texts. -/
theorem SameRow.storable_eq (h : SameRow order order') (hstorable : order.storable = true) :
    order'.storable = (order'.endToEndId.all (fitsColumn 255) &&
      order'.failureReason.all (fitsColumn 512)) := by
  rw [h]
  unfold PixOrder.storable PixOrder.textColumns at hstorable ⊢
  simp only [List.all_cons, List.all_nil, Bool.and_true, Bool.and_eq_true] at hstorable
  simp only [List.all_cons, List.all_nil, Bool.and_true, hstorable, Bool.true_and]

theorem columnText_eq_ok {value : Json} {text : String} :
    columnText value = .ok text ↔ value = .string text ∧ fitsText text = true := by
  cases value with
  | string s =>
    unfold columnText
    rw [throwIf_bind_eq_ok, pure_eq_ok, Bool.not_eq_false, Json.string.injEq, and_comm]
    exact and_congr_right fun h => by rw [h]
  | null | bool _ | number _ | nonFinite _ | array _ | object _ => exact ⟨nofun, nofun⟩

theorem fits_some {width : Nat} {value : Json} :
    fits width (some value) = true ↔ ∃ text, columnText value = .ok text ∧ fitsColumn width text = true := by
  cases h : columnText value <;> simp [fits, h, Except.toOption]

theorem readEndToEndId_fits (hfits : order.endToEndId.all (fitsColumn 255) = true) :
    (∃ endToEndId, readEndToEndId order payload = .ok endToEndId ∧
      endToEndId.all (fitsColumn 255) = true) ↔
      fits 255 (firstTruthy payload "endToEndId" "end_to_end_id") = true := by
  unfold readEndToEndId
  cases firstTruthy payload "endToEndId" "end_to_end_id" with
  | none => exact iff_of_true ⟨_, rfl, hfits⟩ rfl
  | some value =>
    rw [fits_some]
    constructor
    · rintro ⟨endToEndId, hread, htext⟩
      obtain ⟨text, hcolumn, rfl⟩ := map_eq_ok.mp hread
      exact ⟨text, hcolumn, by simpa using htext⟩
    · rintro ⟨text, hcolumn, hlength⟩
      exact ⟨some text, map_eq_ok.mpr ⟨text, hcolumn, rfl⟩, by simpa using hlength⟩

theorem readEndToEndId_told {endToEndId : Option String} (h : readEndToEndId order payload = .ok endToEndId) :
    endToEndId = ((firstTruthy payload "endToEndId" "end_to_end_id").bind fun v => (columnText v).toOption).or
      order.endToEndId := by
  unfold readEndToEndId at h
  split at h
  · next value hvalue =>
    obtain ⟨text, hcolumn, rfl⟩ := map_eq_ok.mp h
    rw [hvalue, Option.bind_some, hcolumn]
    rfl
  · next hnone =>
    cases pure_eq_ok.mp h
    rw [hnone]
    rfl

theorem readFailureReason_fits (hfits : fitsColumn 512 eventType = true) :
    (∃ reason, readFailureReason eventType payload = .ok reason ∧ fitsColumn 512 reason = true) ↔
      fits 512 (firstTruthy payload "reason" "rejectReason") = true := by
  unfold readFailureReason
  cases firstTruthy payload "reason" "rejectReason" with
  | none => exact iff_of_true ⟨_, rfl, hfits⟩ rfl
  | some value => exact fits_some.symm

theorem comparePaidAmount_eq_ok :
    comparePaidAmount py payload = .ok () ↔
      (firstTruthy payload "paidAmount" "amount").all (fun amount => (py.float amount).toOption.isSome) = true := by
  unfold comparePaidAmount
  cases firstTruthy payload "paidAmount" "amount" with
  | none => exact iff_of_true rfl rfl
  | some amount => exact ⟨fun h => toOption_isSome.mpr ⟨(), h⟩, fun h => (toOption_isSome.mp h).choose_spec⟩

theorem recordConfirmed_storable (hstorable : order.storable = true) :
    (∃ order', recordConfirmed py fresh { order with status := .confirmed } payload = .ok order' ∧ order'.storable = true) ↔
      (fits 255 (firstTruthy payload "endToEndId" "end_to_end_id") &&
        (firstTruthy payload "paidAmount" "amount").all fun amount => (py.float amount).toOption.isSome) = true := by
  have hkept := (SameRow.refl order).storable_eq hstorable
  rw [hstorable, eq_comm, Bool.and_eq_true] at hkept
  have hread : _ ↔ fits 255 (firstTruthy payload "endToEndId" "end_to_end_id") = true :=
    @readEndToEndId_fits { order with status := .confirmed } payload hkept.1
  rw [Bool.and_eq_true, ← hread, ← comparePaidAmount_eq_ok]
  have hwritten : ∀ endToEndId : Option String,
      { order with status := .confirmed, confirmedAt := some fresh.now, endToEndId := endToEndId }.storable =
        endToEndId.all (fitsColumn 255) := by
    intro endToEndId
    have hrow : SameRow order
        { order with status := .confirmed, confirmedAt := some fresh.now, endToEndId := endToEndId } := rfl
    rw [hrow.storable_eq hstorable]
    simp [hkept.2]
  constructor
  · rintro ⟨order', hrecord, hfits⟩
    obtain ⟨endToEndId, hread, hrecord⟩ := bind_eq_ok.mp hrecord
    obtain ⟨_, hcompare, hrecord⟩ := bind_eq_ok.mp hrecord
    cases pure_eq_ok.mp hrecord
    exact ⟨⟨endToEndId, hread, hwritten endToEndId ▸ hfits⟩, hcompare⟩
  · rintro ⟨⟨endToEndId, hread, hfits⟩, hcompare⟩
    exact ⟨_, bind_eq_ok.mpr ⟨endToEndId, hread, bind_eq_ok.mpr ⟨(), hcompare, rfl⟩⟩, (hwritten endToEndId).trans hfits⟩

theorem recordFailed_storable (status : PixOrderStatus) (hstorable : order.storable = true)
    (htype : fitsColumn 512 eventType = true) :
    (∃ order', recordFailed fresh { order with status } eventType payload = .ok order' ∧
      order'.storable = true) ↔ fits 512 (firstTruthy payload "reason" "rejectReason") = true := by
  have hkept := (SameRow.refl order).storable_eq hstorable
  rw [hstorable, eq_comm, Bool.and_eq_true] at hkept
  rw [← readFailureReason_fits htype]
  have hwritten : ∀ reason : String,
      { order with status, failedAt := some fresh.now, failureReason := some reason }.storable =
        fitsColumn 512 reason := by
    intro reason
    have hrow : SameRow order { order with status, failedAt := some fresh.now, failureReason := some reason } := rfl
    rw [hrow.storable_eq hstorable]
    simp [hkept.1]
  constructor
  · rintro ⟨order', hrecord, hfits⟩
    obtain ⟨reason, hread, hrecord⟩ := bind_eq_ok.mp hrecord
    cases pure_eq_ok.mp hrecord
    exact ⟨reason, hread, hwritten reason ▸ hfits⟩
  · rintro ⟨reason, hread, hfits⟩
    exact ⟨_, bind_eq_ok.mpr ⟨reason, hread, rfl⟩, (hwritten reason).trans hfits⟩

/-- An event of the outcome can be recorded and stored exactly if its values can. -/
theorem recordOutcome_storable (hstorable : order.storable = true) (hevent : eventType ∈ outcome.eventTypes) :
    (∃ order', recordOutcome py fresh { order with status := outcome.status } outcome.status eventType payload = .ok order' ∧
      order'.storable = true) ↔ outcome.storable py payload = true := by
  cases outcome with
  | paid _ | completed _ => exact recordConfirmed_storable hstorable
  | failed =>
    rw [List.mem_singleton.mp hevent]
    exact recordFailed_storable .failed hstorable (by decide)
  | expired | cancelled => exact iff_of_true ⟨_, rfl, hstorable⟩ rfl

theorem recordOutcome_told
    (h : recordOutcome py fresh { order with status := outcome.status } outcome.status eventType payload = .ok order') :
    order'.endToEndId = (outcome.told payload).or order.endToEndId := by
  cases outcome with
  | paid _ | completed _ =>
    obtain ⟨endToEndId, hread, h⟩ := bind_eq_ok.mp h
    obtain ⟨_, -, h⟩ := bind_eq_ok.mp h
    cases pure_eq_ok.mp h
    exact readEndToEndId_told hread
  | failed =>
    obtain ⟨_, -, h⟩ := bind_eq_ok.mp h
    cases pure_eq_ok.mp h
    rfl
  | expired | cancelled =>
    cases pure_eq_ok.mp h
    rfl

theorem outcome_mem_callbackStatuses (outcome : Outcome) : outcome.status ∈ callbackStatuses := by
  cases outcome <;> simp [Outcome.status, callbackStatuses]

theorem applyCorpxEvent_outcome (hallowed : isTransitionAllowed order.status outcome.status = true)
    (hevent : eventType ∈ outcome.eventTypes) :
    applyCorpxEvent py fresh order eventType payload =
      (do
        let order' ← recordOutcome py fresh { order with status := outcome.status } outcome.status eventType payload
        pure (order', some outcome.status)) := by
  unfold applyCorpxEvent
  simp only [corpxEventToStatus_outcome hevent, hallowed, Bool.true_eq_false, ↓reduceIte]

end Apply

/-! ### What a report does -/

section Handle
variable {py : Python} {settings : Settings} {fresh : Fresh} {db db' : Db} {order order' : PixOrder} {outcome : Outcome}
  {event : Option PixEvent} {r : Report}

/-- The order is written, and one callback of it is enqueued. -/
structure Takes (db db' : Db) (order order' : PixOrder) : Prop where
  orders : db'.pixOrders = Table.modify PixOrder.id order.id (fun _ => order') db.pixOrders
  callback : ∃ callback, db'.outboxCallbacks = db.outboxCallbacks ++ [callback] ∧ callback.pixOrderId = some order.id

/-- A change of an order as it is in the table, with a callback that is new. -/
structure Landing (db : Db) (order order' : PixOrder) (fresh : Fresh) (event : Option PixEvent) : Prop where
  find : findOrderById db order.id = some order
  id : order'.id = order.id
  written : PixOrder.written order order' order = order'
  event : ∀ e ∈ event, Table.find PixEvent.eventId e.eventId db.pixEvents = none ∧ e.pixOrderId = order.id
  callback : Table.find OutboxCallback.eventId fresh.callbackEventId db.outboxCallbacks = none

theorem Landing.commit_takes (h : Landing db order order' fresh event)
    (hcommit : db.commit ⟨order, order', event, some (callbackOf settings fresh order')⟩ = .ok db') :
    Takes db db' order order' := by
  obtain ⟨stored, hfind, -, -, rfl⟩ := Db.commit_inv hcommit
  obtain rfl : order = stored := Option.some.inj (h.find.symm.trans hfind)
  exact ⟨by simp only [h.written], _, rfl, congrArg some h.id⟩

theorem Landing.commit_iff (h : Landing db order order' fresh event) :
    (∃ db', db.commit ⟨order, order', event, some (callbackOf settings fresh order')⟩ = .ok db') ↔
      order'.storable = true ∧ ∀ e ∈ event, e.storable = true := by
  have hlands : Change.Lands db ⟨order, order', event, some (callbackOf settings fresh order')⟩ :=
    ⟨h.find, h.id, h.written, h.event, fun c hc => Option.some.inj hc ▸ h.callback⟩
  exact hlands.commit_iff

theorem webhookChange_outcome {received : CorpXWebhook}
    (hallowed : isTransitionAllowed order.status outcome.status = true) (hevent : received.eventType ∈ outcome.eventTypes) :
    webhookChange py settings fresh received order = (do
      let order' ← recordOutcome py fresh { order with status := outcome.status } outcome.status received.eventType
        received.data
      pure ⟨order, order', some ⟨received.eventId, order.id, "corpx_webhook", received.eventType, some received.rawPayload⟩,
        some (callbackOf settings fresh order')⟩) := by
  unfold webhookChange
  rw [applyCorpxEvent_outcome hallowed hevent]
  cases recordOutcome py fresh { order with status := outcome.status } outcome.status received.eventType received.data with
  | error e => rfl
  | ok order' =>
    have hmem : decide (outcome.status ∈ callbackStatuses) = true := decide_eq_true (outcome_mem_callbackStatuses outcome)
    simp only [bind, Except.bind, pure, Except.pure, Option.filter_some, hmem, ↓reduceIte, Option.map_some]

theorem reconcileWith_outcome (hfind : findOrderById db order.id = some order)
    (hallowed : isTransitionAllowed order.status outcome.status = true) {eventType : String} {payload : Json}
    (hevent : eventType ∈ outcome.eventTypes) :
    reconcileWith py settings fresh db order (some eventType) payload = (do
      let order' ← recordOutcome py fresh { order with status := outcome.status } outcome.status eventType payload
      db.commit ⟨order, order', none, some (callbackOf settings fresh order')⟩) := by
  simp only [reconcileWith, applyCorpxEvent_outcome hallowed hevent]
  cases hrecord : recordOutcome py fresh { order with status := outcome.status } outcome.status eventType payload with
  | error e => rfl
  | ok order' =>
    have hcommit : db.commit ⟨order, order', none, some (callbackOf settings fresh order')⟩ = _ :=
      commit_loaded hfind (recordOutcome_written hrecord)
    exact hcommit.symm

theorem reconcileOrder_live (hfind : findOrderById db order.id = some order) (hlive : isTerminal order.status = false)
    {lookupQr : Except PyError QrCodeStatus} {lookupPayment : Except PyError PaymentStatus} {eventType : String}
    {payload : Json} (hevent : (Report.reconcileOrder fresh lookupQr lookupPayment).event py order = some (eventType, payload)) :
    reconcileOrder py settings fresh db order.id lookupQr lookupPayment =
      reconcileWith py settings fresh db order (some eventType) payload := by
  unfold reconcileOrder
  rw [hfind]
  cases htype : order.type with
  | deposit =>
    simp only [Report.event, htype] at hevent
    obtain ⟨qrStatus, hlookup, hevent⟩ := Option.bind_eq_some_iff.mp hevent
    obtain ⟨eventType, hstatus, hevent⟩ := Option.map_eq_some_iff.mp hevent
    cases hevent
    simp only [orThrow, bind, Except.bind, hlive, htype, Bool.false_eq_true, ↓reduceIte, toOption_eq_some.mp hlookup]
    exact congrArg (reconcileWith py settings fresh db order · (qrPayload qrStatus)) hstatus
  | withdrawal =>
    simp only [Report.event, htype] at hevent
    obtain ⟨paymentStatus, hlookup, hevent⟩ := Option.bind_eq_some_iff.mp hevent
    obtain ⟨eventType, hstatus, hevent⟩ := Option.map_eq_some_iff.mp hevent
    cases hevent
    simp only [orThrow, bind, Except.bind, hlive, htype, Bool.false_eq_true, ↓reduceIte, toOption_eq_some.mp hlookup]
    exact congrArg (reconcileWith py settings fresh db order · (paymentPayload paymentStatus)) hstatus

/-- An event that finds an order is known already, or is committed with what it makes of the order. -/
theorem processWebhookEvent_found {received : CorpXWebhook}
    (hfound : orderKeys received >>= findOrderForEvent db = .ok (some order)) :
    processWebhookEvent py settings fresh db received = .ok db' ↔
      eventAlreadyProcessed db received.eventId = .ok true ∧ db' = db ∨
        eventAlreadyProcessed db received.eventId = .ok false ∧
          ∃ change, webhookChange py settings fresh received order = .ok change ∧ db.commit change = .ok db' := by
  obtain ⟨keys, hkeys, hfound⟩ := bind_eq_ok.mp hfound
  unfold processWebhookEvent
  rw [hkeys]
  cases eventAlreadyProcessed db received.eventId with
  | error e => exact iff_of_false nofun (by simp)
  | ok processed =>
    cases processed with
    | true =>
      constructor
      · exact fun h => .inl ⟨rfl, (pure_eq_ok.mp h).symm⟩
      · rintro (⟨-, rfl⟩ | ⟨h, -⟩)
        · rfl
        · cases h
    | false =>
      constructor
      · intro h
        obtain ⟨_, ⟨⟩, h⟩ := bind_eq_ok.mp h
        obtain ⟨_, ⟨⟩, h⟩ := bind_eq_ok.mp h
        obtain ⟨_, hfound', h⟩ := bind_eq_ok.mp h
        cases hfound.symm.trans hfound'
        exact .inr ⟨rfl, bind_eq_ok.mp h⟩
      · rintro (⟨h, -⟩ | ⟨-, h⟩)
        · cases h
        · exact bind_eq_ok.mpr ⟨false, rfl, bind_eq_ok.mpr ⟨keys, rfl, bind_eq_ok.mpr ⟨some order, hfound, bind_eq_ok.mpr h⟩⟩⟩

variable (settings) in
/-- Handled alone, a report of a live order records the outcome, and commits what it made of the order. -/
theorem report_eq (hfind : findOrderById db order.id = some order) (hlive : isTerminal order.status = false)
    (hallowed : isTransitionAllowed order.status outcome.status = true) (hof : r.Of py db order outcome) :
    ∃ eventType payload event, r.event py order = some (eventType, payload) ∧ eventType ∈ outcome.eventTypes ∧
      (∀ e ∈ event, Table.find PixEvent.eventId e.eventId db.pixEvents = none ∧ e.pixOrderId = order.id) ∧
      ((∀ e ∈ event, e.storable = true) ↔ r.recordable = true) ∧
      ∀ db', report py settings order.id db r = .ok db' ↔ (do
        let order' ← recordOutcome py r.fresh { order with status := outcome.status } outcome.status eventType payload
        db.commit ⟨order, order', event, some (callbackOf settings r.fresh order')⟩) = .ok db' := by
  obtain ⟨⟨eventType, payload⟩, hevent, hmem⟩ := hof.event
  cases r with
  | webhook fresh received =>
    cases hevent
    obtain ⟨hnew, hkeys⟩ := hof.webhook fresh received rfl
    obtain ⟨keys, hkeys, hfound⟩ := bind_eq_ok.mp hkeys
    refine ⟨received.eventType, received.data,
      some ⟨received.eventId, order.id, "corpx_webhook", received.eventType, some received.rawPayload⟩, rfl, hmem, ?_, ?_, ?_⟩
    · intro e he
      cases he
      exact ⟨hnew, rfl⟩
    · have htype : fitsColumn 100 received.eventType = true := eventType_fits hmem
      have hsource : fitsColumn 50 "corpx_webhook" = true := by decide
      simp [PixEvent.storable, Report.recordable, htype, hsource]
    · intro db'
      have hchange : webhookChange py settings fresh received order = _ := webhookChange_outcome hallowed hmem
      have hreport : report py settings order.id db (.webhook fresh received) = .ok db' ↔ _ :=
        processWebhookEvent_found (bind_eq_ok.mpr ⟨keys, hkeys, hfound⟩)
      rw [hreport]
      constructor
      · rintro (⟨hprocessed, -⟩ | ⟨-, change, hmade, hcommit⟩)
        · have hsome := (eventAlreadyProcessed_eq_ok.mp hprocessed).2
          rw [hnew] at hsome
          cases hsome
        · obtain ⟨order', hrecord, hmade⟩ := bind_eq_ok.mp (hchange.symm.trans hmade)
          cases pure_eq_ok.mp hmade
          exact bind_eq_ok.mpr ⟨order', hrecord, hcommit⟩
      · intro h
        obtain ⟨order', hrecord, hcommit⟩ := bind_eq_ok.mp h
        have hfits := commit_event_storable hcommit _ rfl
        simp only [PixEvent.storable, Bool.and_eq_true] at hfits
        exact .inr ⟨eventAlreadyProcessed_eq_false.mpr ⟨(fitsColumn_eq_true.mp hfits.1.1.1).2, hnew⟩, _,
          hchange.trans (bind_eq_ok.mpr ⟨order', hrecord, rfl⟩), hcommit⟩
  | reconcileOrder fresh lookupQr lookupPayment =>
    have hnone (P : PixEvent → Prop) : ∀ e ∈ (none : Option PixEvent), P e := fun e he => by cases he
    refine ⟨eventType, payload, none, hevent, hmem, hnone _, iff_of_true (hnone _) rfl, ?_⟩
    have hwith : reconcileOrder py settings fresh db order.id lookupQr lookupPayment = _ :=
      reconcileOrder_live hfind hlive hevent
    exact fun db' => Eq.congr_left (hwith.trans (reconcileWith_outcome hfind hallowed hmem))

section Live
variable (hstanding : order.Standing) (hlive : isTerminal order.status = false) (htype : order.type = outcome.type)
  (hfind : findOrderById db order.id = some order) (hof : r.Of py db order outcome)
include hstanding hlive htype hfind hof

variable (settings) in
/-- A live order takes a report exactly if it can store what the report tells. -/
theorem report_iff : (∃ db', report py settings order.id db r = .ok db') ↔ r.storable py order outcome = true := by
  have hallowed := hstanding.status.allowed hlive htype
  obtain ⟨eventType, payload, event, hevent, hmem, hnew, hrow, hreport⟩ := report_eq settings hfind hlive hallowed hof
  have hstorable : r.storable py order outcome = (r.recordable && outcome.storable py payload) := by
    unfold Report.storable
    rw [hevent]
    rfl
  rw [hstorable, Bool.and_eq_true, ← recordOutcome_storable hstanding.storable hmem, ← hrow, exists_congr hreport]
  have hlanding : ∀ order', recordOutcome py r.fresh { order with status := outcome.status } outcome.status eventType
      payload = .ok order' → Landing db order order' r.fresh event := fun order' hrecord =>
    ⟨hfind, (recordOutcome_applied hallowed hrecord).same.id, recordOutcome_written hrecord, hnew, hof.fresh⟩
  constructor
  · rintro ⟨db', hdb'⟩
    obtain ⟨order', hrecord, hcommit⟩ := bind_eq_ok.mp hdb'
    obtain ⟨hfits, hevent⟩ := (hlanding order' hrecord).commit_iff.mp ⟨db', hcommit⟩
    exact ⟨hevent, order', hrecord, hfits⟩
  · rintro ⟨hevent, order', hrecord, hfits⟩
    obtain ⟨db', hcommit⟩ := (hlanding order' hrecord).commit_iff.mpr ⟨hfits, hevent⟩
    exact ⟨db', bind_eq_ok.mpr ⟨order', hrecord, hcommit⟩⟩

/-- What an order takes is the outcome's status and the end-to-end id that the report tells. -/
theorem report_takes (hreport : report py settings order.id db r = .ok db') :
    ∃ order', Takes db db' order order' ∧ SameRow order order' ∧ order'.status = outcome.status ∧
      ∀ event ∈ r.event py order, order'.endToEndId = (outcome.told event.2).or order.endToEndId := by
  have hallowed := hstanding.status.allowed hlive htype
  obtain ⟨eventType, payload, event, hevent, hmem, hnew, -, heq⟩ := report_eq settings hfind hlive hallowed hof
  obtain ⟨order', hrecord, hcommit⟩ := bind_eq_ok.mp ((heq db').mp hreport)
  have happlied := recordOutcome_applied hallowed hrecord
  have hwritten := recordOutcome_written hrecord
  have hlanding : Landing db order order' r.fresh event := ⟨hfind, happlied.same.id, hwritten, hnew, hof.fresh⟩
  refine ⟨order', hlanding.commit_takes hcommit, hwritten ▸ sameRow_written, happlied.status, ?_⟩
  intro e he
  rw [hevent] at he
  cases he
  exact recordOutcome_told hrecord

end Live

/-! ### Terminal orders -/

theorem findOrderByKey_modify (hkeyed : Table.Keyed PixOrder.id db.pixOrders) (hmem : order ∈ db.pixOrders)
    (hrow : SameRow order order') (horders : db'.pixOrders = Table.modify PixOrder.id order.id (fun _ => order') db.pixOrders)
    (key : OrderKey) :
    findOrderByKey db' key = (findOrderByKey db key).map (Option.map fun x => if x.id = order.id then order' else x) := by
  have hone : ∀ p : PixOrder → Bool, p order' = p order →
      oneOrNone (db'.pixOrders.filter p) =
        (oneOrNone (db.pixOrders.filter p)).map (Option.map fun x => if x.id = order.id then order' else x) := by
    intro p hp
    have hfilter : db'.pixOrders.filter p =
        (db.pixOrders.filter p).map fun x => if x.id = order.id then order' else x := by
      rw [horders, Table.modify, List.filter_map]
      congr 1
      refine List.filter_congr fun x hx => ?_
      simp only [Function.comp]
      split
      · next hid =>
        rw [hkeyed.eq_of_key hx hmem hid]
        exact hp
      · rfl
    rw [hfilter]
    rcases db.pixOrders.filter p with _ | ⟨a, _ | ⟨b, rest⟩⟩ <;> rfl
  cases key with
  | identifier value | txid value | paymentId value =>
    simp only [findOrderByKey]
    cases columnText value with
    | error e => rfl
    | ok text => exact hone _ (by rw [hrow])

theorem findOrderForEvent_modify (hkeyed : Table.Keyed PixOrder.id db.pixOrders) (hmem : order ∈ db.pixOrders)
    (hrow : SameRow order order') (horders : db'.pixOrders = Table.modify PixOrder.id order.id (fun _ => order') db.pixOrders)
    {keys : List OrderKey} (h : findOrderForEvent db keys = .ok (some order)) :
    findOrderForEvent db' keys = .ok (some order') := by
  induction keys with
  | nil => cases pure_eq_ok.mp h
  | cons key keys ih =>
    obtain ⟨found, hkey, h⟩ := bind_eq_ok.mp h
    refine bind_eq_ok.mpr ⟨_, (findOrderByKey_modify hkeyed hmem hrow horders key).trans (by rw [hkey]; rfl), ?_⟩
    cases found with
    | none => exact ih h
    | some x =>
      cases pure_eq_ok.mp h
      exact congrArg (fun x => Except.ok (some x)) (if_pos rfl)

/-- A webhook whose event finds the order. -/
def Report.Finds (db : Db) (order : PixOrder) : Report → Prop
  | .webhook _ received => orderKeys received >>= findOrderForEvent db = .ok (some order)
  | .reconcileOrder .. => True

structure SameOrders (db db' : Db) : Prop where
  orders : db'.pixOrders = db.pixOrders
  callbacks : db'.outboxCallbacks = db.outboxCallbacks

/-- A terminal order takes no report. -/
theorem report_terminal (hkeyed : Table.Keyed PixOrder.id db.pixOrders) (hfind : findOrderById db order.id = some order)
    (hterm : isTerminal order.status = true) (hfinds : r.Finds db order)
    (h : report py settings order.id db r = .ok db') : SameOrders db db' := by
  cases r with
  | webhook fresh received =>
    rcases (processWebhookEvent_found hfinds).mp h with ⟨-, rfl⟩ | ⟨-, change, hchange, hcommit⟩
    · exact ⟨rfl, rfl⟩
    · obtain ⟨⟨changed, newStatus⟩, happly, hchange⟩ := bind_eq_ok.mp hchange
      cases pure_eq_ok.mp hchange
      rcases applyCorpxEvent_inv happly with ⟨rfl, rfl⟩ | ⟨-, -, hallowed⟩
      · obtain ⟨stored, hstored, -, -, rfl⟩ := Db.commit_inv hcommit
        obtain rfl := Option.some.inj (hfind.symm.trans hstored)
        refine ⟨?_, List.append_nil _⟩
        simp only [PixOrder.written, written_loaded]
        exact Table.modify_self hkeyed (Table.mem_of_find hfind)
      · rw [isTerminal_iff.mp hterm] at hallowed
        cases hallowed
  | reconcileOrder fresh lookupQr lookupPayment =>
    obtain ⟨found, hfound, h⟩ := orThrow_bind_eq_ok.mp h
    cases hfind.symm.trans hfound
    rw [if_pos hterm] at h
    cases pure_eq_ok.mp h
    exact ⟨rfl, rfl⟩

theorem Report.Finds.of_orders (h : r.Finds db order) (horders : db'.pixOrders = db.pixOrders) : r.Finds db' order := by
  have hkey : ∀ key, findOrderByKey db' key = findOrderByKey db key := fun key => by
    cases key <;> simp only [findOrderByKey, horders]
  have hkeys : findOrderForEvent db' = findOrderForEvent db := by
    funext keys
    induction keys with
    | nil => rfl
    | cons key keys ih => simp only [findOrderForEvent, hkey, ih]
  cases r with
  | webhook fresh received =>
    unfold Report.Finds at h ⊢
    rwa [hkeys]
  | reconcileOrder fresh lookupQr lookupPayment => trivial

/-- Reports of a terminal order leave the orders and the outbox as they are. -/
theorem run_terminal (hkeyed : Table.Keyed PixOrder.id db.pixOrders) (hfind : findOrderById db order.id = some order)
    (hterm : isTerminal order.status = true) {reports : List Report} (hfinds : ∀ r ∈ reports, r.Finds db order) :
    SameOrders db (run (report py settings order.id) db reports) := by
  refine (throughout_of_along (I := SameOrders db) (Q := fun _ r => r.Finds db order) ?_ ⟨rfl, rfl⟩
    (.of_forall hfinds)).last
  intro db₁ r db₂ hsame hr hreport
  have hfind₁ : findOrderById db₁ order.id = some order := by
    unfold findOrderById
    rw [hsame.orders]
    exact hfind
  have hstays := report_terminal (hsame.orders ▸ hkeyed) hfind₁ hterm (hr.of_orders hsame.orders) hreport
  exact ⟨hstays.orders.trans hsame.orders, hstays.callbacks.trans hsame.callbacks⟩

end Handle

/-! ### Sequences of reports -/

section Runs
variable {env : ServiceEnv} {py : Python} {settings : Settings} {db : Db} {order : PixOrder} {outcome : Outcome}
  {reports : List Report}

theorem Report.Of.finds {r : Report} (h : r.Of py db order outcome) : r.Finds db order := by
  cases r with
  | webhook fresh received => exact (h.webhook fresh received rfl).2
  | reconcileOrder fresh lookupQr lookupPayment => trivial

theorem Report.Finds.modify {db' : Db} {order' : PixOrder} {r : Report} (h : r.Finds db order)
    (hkeyed : Table.Keyed PixOrder.id db.pixOrders) (hmem : order ∈ db.pixOrders) (hrow : SameRow order order')
    (horders : db'.pixOrders = Table.modify PixOrder.id order.id (fun _ => order') db.pixOrders) : r.Finds db' order' := by
  cases r with
  | webhook fresh received =>
    have hfound : orderKeys received >>= findOrderForEvent db = .ok (some order) := h
    obtain ⟨keys, hkeys, hfound⟩ := bind_eq_ok.mp hfound
    exact bind_eq_ok.mpr ⟨keys, hkeys, findOrderForEvent_modify hkeyed hmem hrow horders hfound⟩
  | reconcileOrder fresh lookupQr lookupPayment => trivial

section Live
variable (hkeyed : Table.Keyed PixOrder.id db.pixOrders) (hmem : order ∈ db.pixOrders) (hstanding : order.Standing)
  (hlive : isTerminal order.status = false) (htype : order.type = outcome.type)
include hkeyed hmem hstanding hlive htype

theorem run_unstorable (hof : ∀ r ∈ reports, r.Of py db order outcome)
    (hnone : ∀ r ∈ reports, ¬r.storable py order outcome = true) : run (report py settings order.id) db reports = db := by
  have hfind : findOrderById db order.id = some order := (Table.find_eq_some hkeyed).mpr ⟨hmem, rfl⟩
  induction reports with
  | nil => rfl
  | cons r reports ih =>
    have hr := List.mem_cons_self (a := r) (l := reports)
    cases hreport : report py settings order.id db r with
    | error e =>
      rw [run_cons_of_error hreport]
      exact ih (fun r' hr' => hof r' (List.mem_cons_of_mem r hr')) fun r' hr' => hnone r' (List.mem_cons_of_mem r hr')
    | ok db' => exact absurd ((report_iff settings hstanding hlive htype hfind (hof r hr)).mp ⟨db', hreport⟩) (hnone r hr)

/-- The first report that can be stored is the one that the order takes. -/
theorem run_settled_iff (hof : ∀ r ∈ reports, r.Of py db order outcome) :
    Settled db (run (report py settings order.id) db reports) order outcome ↔
      ∃ r ∈ reports.find? (Report.storable py order outcome), r.Tells py order outcome := by
  have hfind : findOrderById db order.id = some order := (Table.find_eq_some hkeyed).mpr ⟨hmem, rfl⟩
  cases hfirst : reports.find? (Report.storable py order outcome) with
  | none =>
    have hunchanged : run (report py settings order.id) db reports = db :=
      run_unstorable hkeyed hmem hstanding hlive htype hof (List.find?_eq_none.mp hfirst)
    rw [hunchanged]
    refine iff_of_false (fun hsettled => ?_) fun ⟨r, hr, _⟩ => Option.not_mem_none r hr
    obtain ⟨callback, hcallbacks, -⟩ := hsettled.callback
    simp at hcallbacks
  | some r =>
    obtain ⟨hstorable, before, after, rfl, hbefore⟩ := List.find?_eq_some_iff_append.mp hfirst
    have hr : r.Of py db order outcome := hof r (by simp)
    obtain ⟨db', hreport⟩ := (report_iff settings hstanding hlive htype hfind hr).mpr hstorable
    obtain ⟨order', htakes, hrow, hstatus, htold⟩ := report_takes hstanding hlive htype hfind hr hreport
    have hunchanged : run (report py settings order.id) db before = db :=
      run_unstorable hkeyed hmem hstanding hlive htype (fun r hr => hof r (List.mem_append_left _ hr))
        fun r hr => by simpa using hbefore r hr
    have hfind' : findOrderById db' order.id = some order' := findOrderById_modify hfind hrow.id htakes.orders
    have hkeyed' : Table.Keyed PixOrder.id db'.pixOrders := htakes.orders ▸ hkeyed.modify fun _ _ => hrow.id
    have hafter : SameOrders db' (run (report py settings order.id) db' after) := by
      rw [← hrow.id]
      refine run_terminal hkeyed' (hrow.id ▸ hfind') (by rw [hstatus]; cases outcome <;> rfl) fun x hx => ?_
      exact (hof x (by simp [hx])).finds.modify hkeyed hmem hrow htakes.orders
    rw [run_append, hunchanged, run_cons_of_ok hreport]
    obtain ⟨callback, hcallbacks, hpix⟩ := htakes.callback
    have hrowAfter : findOrderById (run (report py settings order.id) db' after) order.id = some order' := by
      unfold findOrderById
      rw [hafter.orders]
      exact hfind'
    obtain ⟨event, hevent, -⟩ := hr.event
    constructor
    · rintro ⟨⟨stored, hstored, -, hendToEndId⟩, -⟩
      cases hrowAfter.symm.trans hstored
      refine ⟨r, rfl, fun e he => (htold e he).symm.trans hendToEndId⟩
    · rintro ⟨r', hr', htells⟩
      cases hr'
      exact ⟨⟨order', hrowAfter, hstatus, (htold event hevent).trans (htells event hevent)⟩,
        callback, hafter.callbacks.trans hcallbacks, hpix⟩

end Live

end Runs
section Examples

def requestedDb : Db := (run (pixService testService).step ⟨.empty, []⟩ [newWithdrawal]).shared.tables.db

def requestedWithdrawal : PixOrder :=
  withdrawalOrder testSettings ⟨"w", "1", "1", 0, 0⟩ withdrawalRequest 5000 ⟨"payment", "CREATED"⟩

theorem requestedDb_orders : requestedDb.pixOrders = [requestedWithdrawal] := by with_unfolding_all rfl

theorem requestedWithdrawal_mem : requestedWithdrawal ∈ requestedDb.pixOrders := by
  rw [requestedDb_orders]
  exact List.mem_singleton_self _

/-- A webhook that tells of the withdrawal. -/
def completedWebhook (eventId endToEndId callbackEventId : String) : Report :=
  .webhook ⟨"", "", callbackEventId, 1, 1⟩ ⟨eventId, "pix.out.completed",
    .object [("identifier", .string "cbw_1"), ("endToEndId", .string endToEndId)], .object []⟩

def failedWebhook (eventId reason callbackEventId : String) : Report :=
  .webhook ⟨"", "", callbackEventId, 1, 1⟩ ⟨eventId, "pix.out.failed",
    .object [("identifier", .string "cbw_1"), ("reason", .string reason)], .object []⟩

/-- A reconciliation that is answered with the withdrawal's payment. -/
def seesPayment (status : String) (endToEndId : Option String) (callbackEventId : String) : Report :=
  .reconcileOrder ⟨"", "", callbackEventId, 2, 2⟩ (.error .other) (.ok ⟨status, endToEndId, none⟩)

theorem completedWebhook_of {eventId : String} (endToEndId callbackEventId : String)
    (hnew : Table.find PixEvent.eventId eventId requestedDb.pixEvents = none) (told : Option String) :
    (completedWebhook eventId endToEndId callbackEventId).Of plainPython requestedDb requestedWithdrawal (.completed told) where
  event := ⟨_, rfl, List.mem_singleton_self _⟩
  fresh := by with_unfolding_all rfl
  webhook fresh received h := by
    cases h
    exact ⟨hnew, by with_unfolding_all rfl⟩

theorem failedWebhook_of {eventId : String} (reason callbackEventId : String)
    (hnew : Table.find PixEvent.eventId eventId requestedDb.pixEvents = none) :
    (failedWebhook eventId reason callbackEventId).Of plainPython requestedDb requestedWithdrawal .failed where
  event := ⟨_, rfl, List.mem_singleton_self _⟩
  fresh := by with_unfolding_all rfl
  webhook fresh received h := by
    cases h
    exact ⟨hnew, by with_unfolding_all rfl⟩

theorem seesPayment_of {outcome : Outcome} {status eventType : String} (hstatus : paymentStatusToEvent status = some eventType)
    (hevent : eventType ∈ outcome.eventTypes) (endToEndId : Option String) (callbackEventId : String) :
    (seesPayment status endToEndId callbackEventId).Of plainPython requestedDb requestedWithdrawal outcome where
  event := ⟨_, Option.map_eq_some_iff.mpr ⟨eventType, hstatus, rfl⟩, hevent⟩
  fresh := by with_unfolding_all rfl
  webhook fresh received h := by cases h

def completedReports : List Report :=
  [completedWebhook "a" "E1" "1", seesPayment "COMPLETED" (some "E1") "2", completedWebhook "b" "E1" "3"]

theorem completedReports_of :
    ∀ r ∈ completedReports, r.Of plainPython requestedDb requestedWithdrawal (.completed (some "E1")) := by
  intro r hr
  simp only [completedReports, List.mem_cons, List.not_mem_nil, or_false] at hr
  rcases hr with rfl | rfl | rfl
  · exact completedWebhook_of "E1" "1" (by decide +kernel) _
  · exact seesPayment_of (by decide) (List.mem_singleton_self _) _ _
  · exact completedWebhook_of "E1" "3" (by decide +kernel) _

/-- A reason that is longer than its column. -/
def longReason : String := String.ofList (List.replicate 513 'x')

theorem longReason_length : longReason.length = 513 := String.length_ofList.trans List.length_replicate

theorem failedWebhook_unstorable {eventId reason callbackEventId : String} (hlong : 512 < reason.length) :
    (failedWebhook eventId reason callbackEventId).storable plainPython requestedWithdrawal .failed = false := by
  have hne : reason ≠ "" := by
    rintro rfl
    exact absurd hlong (by decide)
  have htold : Option.filter Json.truthy (some (.string reason)) = some (.string reason) :=
    Option.filter_some_pos (decide_eq_true hne)
  have hreason : firstTruthy (.object [("identifier", .string "cbw_1"), ("reason", .string reason)]) "reason" "rejectReason" =
      some (.string reason) := by
    simp [firstTruthy, Json.field?, htold]
  have hfits : fits 512 (some (.string reason)) = false := by
    rw [Bool.eq_false_iff, ne_eq, fits_some]
    rintro ⟨text, htext, hcolumn⟩
    cases (columnText_eq_ok.mp htext).1
    exact absurd (fitsColumn_eq_true.mp hcolumn).1 (Nat.not_le.mpr hlong)
  simp [Report.storable, Report.event, failedWebhook, Outcome.storable, hreason, hfits]

end Examples
end CredBridge.PixService
