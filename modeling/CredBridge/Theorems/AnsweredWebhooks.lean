import CredBridge.PixService.CorpxWebhooks
import CredBridge.Theorems.AgreeingReports

/-! # Answered webhooks

A webhook is answered unless a value that its handler reads cannot be read as it is: a QR code that is no object, a key
that is no text, an amount that is no number, or a text that does not fit in its column. Which values are read is told by
the event and by what the tables hold. -/

namespace CredBridge.PixService
open Concurrent Machine Result

/-! ### Collections of the service

A collection fits in its columns, and no two have the same id. -/

structure CollectionsStanding (tables : Tables) : Prop where
  keyed : Table.Keyed CollectionOrder.id tables.collectionOrders
  storable : ∀ collection ∈ tables.collectionOrders, collection.storable = true

section Collections
variable {env : ServiceEnv} {tables tables' : Tables} {s : Service}

theorem CollectionsStanding.of_eq (h : CollectionsStanding tables)
    (hcollections : tables'.collectionOrders = tables.collectionOrders) : CollectionsStanding tables' := by
  obtain ⟨hkeyed, hstorable⟩ := h
  rw [← hcollections] at hkeyed hstorable
  exact ⟨hkeyed, hstorable⟩

theorem insertCollection_standing {collection : CollectionOrder} (h : tables.insertCollection collection = .ok tables')
    (hstanding : CollectionsStanding tables) : CollectionsStanding tables' := by
  obtain ⟨hnew, htables⟩ := insertCollection_inv h
  obtain ⟨-, h⟩ := throwIf_bind_eq_ok.mp h
  obtain ⟨hstorable, -⟩ := throwIf_bind_eq_ok.mp h
  rw [htables]
  refine ⟨hstanding.keyed.append (Table.find_eq_none.mp hnew), fun c hc => ?_⟩
  rcases List.mem_append.mp hc with hc | hc
  · exact hstanding.storable c hc
  · rw [List.mem_singleton.mp hc]
    exact Bool.not_eq_false _ ▸ hstorable

theorem create_collectionsStanding {fresh : Fresh} {creation : Creation}
    (h : create env fresh tables creation = .ok tables') (hstanding : CollectionsStanding tables) :
    CollectionsStanding tables' := by
  cases creation with
  | deposit request qr | withdrawal request dict out =>
    obtain ⟨_, -, h⟩ := bind_eq_ok.mp h
    cases pure_eq_ok.mp h
    exact hstanding.of_eq rfl
  | collection request qr =>
    obtain ⟨_, -, h⟩ := bind_eq_ok.mp h
    obtain ⟨_, -, h⟩ := bind_eq_ok.mp h
    exact insertCollection_standing h hstanding

theorem commitCollection_standing {change : CollectionChange} (h : tables.commitCollection change = .ok tables')
    (hstanding : CollectionsStanding tables) : CollectionsStanding tables' := by
  obtain ⟨stored, hfind, h⟩ := orThrow_bind_eq_ok.mp h
  obtain ⟨hstorable, h⟩ := throwIf_bind_eq_ok.mp h
  obtain ⟨db, -, h⟩ := bind_eq_ok.mp h
  cases pure_eq_ok.mp h
  refine ⟨hstanding.keyed.modify fun _ _ => rfl, fun c hc => ?_⟩
  obtain ⟨x, hx, rfl⟩ := Table.mem_modify.mp hc
  split
  · exact Bool.not_eq_false _ ▸ hstorable
  · exact hstanding.storable x hx

theorem collectionsOutline : Outline (pixService env) (fun _ _ => True) (fun _ _ _ => True)
    (fun s => CollectionsStanding s.tables) (fun _ _ => True) (fun _ _ => True) where
  start request s hs _ := by
    refine ⟨?_, trivial, fun _ _ => trivial⟩
    show CollectionsStanding (startService env request s).1.tables
    rcases startService_started request with ⟨_, _, tables, -, hcreate, hs'⟩ | ⟨_, _, _, -, -, hs'⟩ | ⟨now, -, hs'⟩ | hs'
    · rw [hs']
      exact create_collectionsStanding hcreate hs
    · rw [hs']
      exact hs.of_eq rfl
    · rw [hs']
      exact hs.of_eq rfl
    · rw [hs']
      exact hs
  resume call answer s hs _ _ := by
    refine ⟨?_, trivial, fun _ _ => trivial⟩
    show CollectionsStanding (resumeService env call answer s).1.tables
    have hresumed : ServiceResumed env call answer s _ := resumeService_resumed call answer
    rcases hresumed with ⟨_, _, _, -, -, -, hs'⟩ | ⟨_, _, _, -, -, hs'⟩ | ⟨_, change, tables, -, -, hcommit, hs'⟩ |
      ⟨batch, answer', -, -, hs'⟩ | ⟨-, hs'⟩
    · rw [hs']
      exact hs.of_eq rfl
    · rw [hs']
      exact hs.of_eq rfl
    · rw [hs']
      exact (commitCollection_standing hcommit hs).of_eq rfl
    · rw [hs']
      exact hs.of_eq rfl
    · rw [hs']
      exact hs
  stable _ _ _ _ _ := trivial

theorem collectionsStanding_of_run (ops : List (Op ServiceRequest ServiceAnswer)) :
    CollectionsStanding (run (pixService env).step ⟨.empty, []⟩ ops).shared.tables := by
  have hthroughout : Throughout (pixService env).step (Holds (fun s => CollectionsStanding s.tables) fun _ _ => True)
      ⟨.empty, []⟩ ops :=
    collectionsOutline.throughout ⟨⟨.nil, List.forall_mem_nil _⟩, List.forall_mem_nil _⟩
      (along_allows (fun _ _ => trivial) (fun _ _ _ => trivial) _ ops)
  exact hthroughout.last.1

end Collections

/-! ### What the handler reads -/

section Reads
variable (webhook : CorpXWebhook)

def CorpXWebhook.qrCode : Json := (webhook.data.field? "qrCode").getD (.object [])

def isObject : Json → Bool
  | .object _ => true
  | _ => false

/-- The QR code of the data has fields, or nothing is looked for in it. -/
def CorpXWebhook.readsQrCode : Bool :=
  isObject webhook.qrCode ||
    (webhook.data.field? "identifier").any Json.truthy && (webhook.data.field? "txid").any Json.truthy

def CorpXWebhook.identifier : Option Json :=
  [webhook.data.field? "identifier", webhook.qrCode.field? "identifier",
    webhook.rawPayload.field? "identifier"].findSome? (·.filter Json.truthy)

def CorpXWebhook.txid : Option Json :=
  [webhook.data.field? "txid", webhook.qrCode.field? "txid"].findSome? (·.filter Json.truthy)

/-- The keys that the event is looked up by, one after the other. -/
def CorpXWebhook.keys : List OrderKey :=
  (webhook.identifier.map .identifier).toList ++ (webhook.txid.map .txid).toList ++
    (((webhook.data.field? "paymentId").filter Json.truthy).map .paymentId).toList

def OrderKey.value : OrderKey → Json
  | .identifier value | .txid value | .paymentId value => value

def OrderKey.column (order : PixOrder) : OrderKey → Option String
  | .identifier _ => some order.identifier
  | .txid _ => order.corpxTxid
  | .paymentId _ => order.corpxPaymentId

/-- The orders that the key names. -/
def OrderKey.orders (db : Db) (key : OrderKey) : List PixOrder :=
  db.pixOrders.filter fun order => (key.column order).any fun text => key.value.isString text

def OrderKey.isText (key : OrderKey) : Bool := (columnText key.value).toOption.isSome

/-- Each key that the search comes to is a text, and names one order at most. -/
def traceable (db : Db) : List OrderKey → Bool
  | [] => true
  | key :: keys => key.isText &&
    match key.orders db with
    | [] => traceable db keys
    | [_] => true
    | _ => false

def namedOrder (db : Db) (keys : List OrderKey) : Option PixOrder := keys.findSome? fun key => (key.orders db).head?

def namedCollection (tables : Tables) : Option CollectionOrder :=
  (webhook.identifier.bind fun value => (columnText value).toOption).bind (findCollectionByIdentifier tables)

/-- The status that the event moves the order to, if any. -/
def takenStatus (order : PixOrder) : Option PixOrderStatus :=
  (corpxEventToStatus webhook.eventType).filter (isTransitionAllowed order.status)

/-- What is recorded with the status can be read from the payload and stored. -/
def PixOrderStatus.recordable (py : Python) (payload : Json) : PixOrderStatus → Bool
  | .confirmed => fits 255 (firstTruthy payload "endToEndId" "end_to_end_id") &&
      (firstTruthy payload "paidAmount" "amount").all fun amount => (py.float amount).toOption.isSome
  | .failed | .timeout => fits 512 (firstTruthy payload "reason" "rejectReason")
  | _ => true

/-- The event can be logged with its payload, and what it moves the order to can be recorded. -/
def CorpXWebhook.recordable (py : Python) (order : PixOrder) : Bool :=
  fitsColumn 255 webhook.eventId && fitsColumn 100 webhook.eventType && webhook.rawPayload.plain &&
    (takenStatus webhook order).all (PixOrderStatus.recordable py webhook.data)

/-- The end-to-end id is a text of the column's width, if there is one. -/
def fitsEndToEndId (data : Json) : Bool :=
  match data.field? "endToEndId" with
  | none | some .null => true
  | some value => fits 255 (some value)

/-- What the event pays a collection with can be stored. -/
def CorpXWebhook.payable : Bool :=
  decide (¬(webhook.eventType = "qrcode.paid" ∨ webhook.eventType = "pix.in.completed")) || fitsEndToEndId webhook.data

structure CorpXWebhook.Readable (py : Python) (tables : Tables) : Prop where
  qrCode : webhook.readsQrCode = true
  keys : traceable tables.db webhook.keys = true
  order : ∀ order ∈ namedOrder tables.db webhook.keys, webhook.recordable py order = true
  collection : namedOrder tables.db webhook.keys = none → (namedCollection webhook tables).isSome = true →
    webhook.payable = true

/-- Nothing more is read of a webhook of another account, nor, past its event id, of one that has been processed. -/
def Answerable (env : ServiceEnv) (tables : Tables) : Prop :=
  ofOtherAccount env webhook = true ∨ fitsText webhook.eventId = true ∧
    ((Table.find PixEvent.eventId webhook.eventId tables.db.pixEvents).isSome = true ∨ webhook.Readable env.py tables)

/-- The handler chose an answer. -/
def HasAnswer (result : Except PyError (WebhookAnswer × Tables)) : Prop := ∃ answer tables, result = .ok (answer, tables)

end Reads

/-! ### The search of the order -/

section Search
variable {webhook : CorpXWebhook} {db : Db} {tables : Tables} {key : OrderKey} {keys : List OrderKey}

theorem orElse_ok (first : Option Json) {other : Option Json} :
    orElse first (.ok other) = .ok ((first.filter Json.truthy).or other) := by
  unfold orElse
  cases first.filter Json.truthy <;> rfl

theorem qrField_of_object (name : String) (h : isObject webhook.qrCode = true) :
    qrField webhook.data name = .ok (webhook.qrCode.field? name) := by
  unfold CorpXWebhook.qrCode at h ⊢
  unfold qrField
  cases hfield : webhook.data.field? "qrCode" with
  | none => rfl
  | some value =>
    rw [hfield] at h
    cases value with
    | object fields => rfl
    | null | bool _ | number _ | nonFinite _ | string _ | array _ => cases h

theorem qrField_eq_error (name : String) (h : isObject webhook.qrCode = false) :
    qrField webhook.data name = .error .other := by
  unfold CorpXWebhook.qrCode at h
  unfold qrField
  cases hfield : webhook.data.field? "qrCode" with
  | none =>
    rw [hfield] at h
    cases h
  | some value =>
    rw [hfield] at h
    cases value with
    | object fields => cases h
    | null | bool _ | number _ | nonFinite _ | string _ | array _ => rfl

theorem filter_or {α : Type} {p : α → Bool} (a b : Option α) :
    ((a.filter p).or b).filter p = (a.filter p).or (b.filter p) := by
  cases a with
  | none => rfl
  | some a => cases h : p a <;> simp [Option.filter, h]

/-- The value that two chained lookups end with. -/
theorem orElse_qrField (name : String)
    (h : isObject webhook.qrCode = true ∨ (webhook.data.field? name).any Json.truthy = true) :
    ∃ value, orElse (webhook.data.field? name) (qrField webhook.data name) = .ok value ∧
      value.filter Json.truthy =
        ((webhook.data.field? name).filter Json.truthy).or ((webhook.qrCode.field? name).filter Json.truthy) := by
  rcases h with hobject | htruthy
  · refine ⟨_, (qrField_of_object name hobject).symm ▸ orElse_ok _, filter_or _ _⟩
  · obtain ⟨value, hvalue, htruthy⟩ := (Option.any_eq_true _ _).mp htruthy
    refine ⟨some value, ?_, ?_⟩
    · simp [orElse, hvalue, Option.filter, htruthy, pure, Except.pure]
    · simp [hvalue, Option.filter, htruthy]

theorem findSome?_filter_cons {α : Type} {p : α → Bool} (a : Option α) (rest : List (Option α)) :
    (a :: rest).findSome? (·.filter p) = (a.filter p).or (rest.findSome? (·.filter p)) := by
  rw [List.findSome?_cons]
  cases a.filter p <;> rfl

theorem reads_field (h : webhook.readsQrCode = true) : ∀ name ∈ ["identifier", "txid"],
    isObject webhook.qrCode = true ∨ (webhook.data.field? name).any Json.truthy = true := by
  unfold CorpXWebhook.readsQrCode at h
  rw [Bool.or_eq_true, Bool.and_eq_true] at h
  intro name hname
  rcases h with hobject | ⟨hidentifier, htxid⟩
  · exact .inl hobject
  · rcases List.mem_pair.mp hname with rfl | rfl
    · exact .inr hidentifier
    · exact .inr htxid

theorem eventIdentifier_ok (h : webhook.readsQrCode = true) :
    ∃ value, eventIdentifier webhook = .ok value ∧ value.filter Json.truthy = webhook.identifier := by
  obtain ⟨nested, hnested, hfilter⟩ := orElse_qrField "identifier" (reads_field h "identifier" (by simp))
  refine ⟨_, bind_eq_ok.mpr ⟨nested, hnested, orElse_ok nested⟩, ?_⟩
  unfold CorpXWebhook.identifier
  rw [filter_or, hfilter, findSome?_filter_cons, findSome?_filter_cons, findSome?_filter_cons, Option.or_assoc]
  simp

theorem orderKeys_ok (h : webhook.readsQrCode = true) : orderKeys webhook = .ok webhook.keys := by
  obtain ⟨identifier, hidentifier, hkey⟩ := eventIdentifier_ok h
  obtain ⟨nested, hnested, hidentifier⟩ := bind_eq_ok.mp hidentifier
  obtain ⟨txid, htxid, hfilter⟩ := orElse_qrField "txid" (reads_field h "txid" (by simp))
  have hor : webhook.txid = txid.filter Json.truthy := by
    unfold CorpXWebhook.txid
    rw [hfilter, findSome?_filter_cons, findSome?_filter_cons]
    simp
  refine bind_eq_ok.mpr ⟨nested, hnested, bind_eq_ok.mpr ⟨identifier, hidentifier, bind_eq_ok.mpr ⟨txid, htxid, ?_⟩⟩⟩
  unfold CorpXWebhook.keys
  rw [hor, hkey]
  rfl

/-- A code that is no object is not looked at only if nothing is left to look for in it. -/
theorem orElse_reads {name : String} {value : Option Json} (hobject : isObject webhook.qrCode = false)
    (h : orElse (webhook.data.field? name) (qrField webhook.data name) = .ok value) :
    (webhook.data.field? name).any Json.truthy = true := by
  unfold orElse at h
  split at h
  · next found hfound =>
    obtain ⟨hfield, htruthy⟩ := Option.filter_eq_some_iff.mp hfound
    rw [hfield]
    exact htruthy
  · rw [qrField_eq_error name hobject] at h
    cases h

theorem readsQrCode_of_orderKeys (h : orderKeys webhook = .ok keys) : webhook.readsQrCode = true := by
  obtain ⟨_, hidentifier, h⟩ := bind_eq_ok.mp h
  obtain ⟨_, -, h⟩ := bind_eq_ok.mp h
  obtain ⟨_, htxid, -⟩ := bind_eq_ok.mp h
  unfold CorpXWebhook.readsQrCode
  cases hobject : isObject webhook.qrCode with
  | true => rfl
  | false => rw [orElse_reads hobject hidentifier, orElse_reads hobject htxid]; rfl

theorem findOrderByKey_eq :
    findOrderByKey db key = columnText key.value >>= fun _ => oneOrNone (key.orders db) := by
  have hcolumn : ∀ (text : String) (column : PixOrder → Option String),
      db.pixOrders.filter (fun order => decide (column order = some text)) =
        db.pixOrders.filter fun order => (column order).any fun t => (Json.string text).isString t := by
    intro text column
    refine List.filter_congr fun order _ => ?_
    cases column order with
    | none => rfl
    | some t => simp [Json.isString, eq_comm]
  have htext : ∀ (value : Json) (rows : String → List PixOrder) (rows' : List PixOrder),
      (∀ text, value = .string text → rows text = rows') →
        (columnText value >>= fun text => oneOrNone (rows text)) = columnText value >>= fun _ => oneOrNone rows' := by
    intro value rows rows' h
    cases hvalue : columnText value with
    | error e => rfl
    | ok text => exact congrArg oneOrNone (h text (columnText_eq_ok.mp hvalue).1)
  cases key with
  | identifier value =>
    refine htext value _ _ fun text hvalue => ?_
    subst hvalue
    simpa [OrderKey.orders, OrderKey.column, OrderKey.value] using hcolumn text fun order => some order.identifier
  | txid value | paymentId value =>
    refine htext value _ _ fun text hvalue => ?_
    subst hvalue
    exact hcolumn text _

theorem findOrderForEvent_ok (h : traceable db keys = true) : findOrderForEvent db keys = .ok (namedOrder db keys) := by
  induction keys with
  | nil => rfl
  | cons key keys ih =>
    rw [traceable, Bool.and_eq_true] at h
    obtain ⟨htext, h⟩ := h
    obtain ⟨text, htext⟩ := toOption_isSome.mp htext
    simp only [findOrderForEvent, findOrderByKey_eq, htext, namedOrder, List.findSome?_cons]
    cases horders : key.orders db with
    | nil =>
      rw [horders] at h
      exact ih h
    | cons order rest =>
      rw [horders] at h
      cases rest with
      | nil => rfl
      | cons other rest => cases h

theorem traceable_of_findOrderForEvent {found : Option PixOrder} (h : findOrderForEvent db keys = .ok found) :
    traceable db keys = true := by
  induction keys with
  | nil => rfl
  | cons key keys ih =>
    obtain ⟨order, hkey, h⟩ := bind_eq_ok.mp h
    rw [findOrderByKey_eq] at hkey
    obtain ⟨text, htext, hkey⟩ := bind_eq_ok.mp hkey
    rw [traceable, Bool.and_eq_true]
    refine ⟨toOption_isSome.mpr ⟨text, htext⟩, ?_⟩
    rcases horders : key.orders db with _ | ⟨found, _ | ⟨other, rest⟩⟩
    · rw [horders] at hkey
      cases pure_eq_ok.mp hkey
      exact ih h
    · rfl
    · rw [horders] at hkey
      cases hkey

/-- A search that names no order has come to each key. -/
theorem isText_of_namedOrder (h : traceable db keys = true) (hnone : namedOrder db keys = none) :
    ∀ key ∈ keys, key.isText = true := by
  induction keys with
  | nil => exact List.forall_mem_nil _
  | cons key keys ih =>
    rw [traceable, Bool.and_eq_true] at h
    obtain ⟨htext, h⟩ := h
    rw [namedOrder, List.findSome?_cons] at hnone
    cases horders : key.orders db with
    | nil =>
      rw [horders] at h hnone
      exact List.forall_mem_cons.mpr ⟨htext, ih h hnone⟩
    | cons order rest =>
      rw [horders] at hnone
      cases hnone

/-- Without an order, the event is one of the collection that its identifier names. -/
theorem findCollectionForEvent_ok (hreads : webhook.readsQrCode = true) (hkeys : traceable tables.db webhook.keys = true)
    (hnone : namedOrder tables.db webhook.keys = none) :
    findCollectionForEvent tables webhook = .ok (namedCollection webhook tables) := by
  obtain ⟨value, hvalue, hfilter⟩ := eventIdentifier_ok hreads
  unfold findCollectionForEvent namedCollection
  rw [hvalue]
  simp only [bind, Except.bind, hfilter]
  cases hidentifier : webhook.identifier with
  | none => rfl
  | some identifier =>
    have hmem : OrderKey.identifier identifier ∈ webhook.keys := by
      unfold CorpXWebhook.keys
      rw [hidentifier]
      exact List.mem_append_left _ (List.mem_append_left _ (List.mem_singleton_self _))
    obtain ⟨text, htext⟩ := toOption_isSome.mp (isText_of_namedOrder hkeys hnone _ hmem)
    have hcolumn : columnText identifier = .ok text := htext
    simp only [hcolumn, Option.bind_some]
    rfl

theorem namedOrder_mem {order : PixOrder} (h : namedOrder db keys = some order) : order ∈ db.pixOrders := by
  obtain ⟨key, -, hhead⟩ := List.exists_of_findSome?_eq_some h
  exact List.mem_of_mem_filter (List.mem_of_mem_head? hhead)

end Search

/-! ### Events of an order -/

section Order
variable {py : Python} {settings : Settings} {fresh : Fresh} {db : Db} {webhook : CorpXWebhook} {order : PixOrder}
  {payload : Json}

theorem recordOutcome_recordable (newStatus : PixOrderStatus) {eventType : String} (hstorable : order.storable = true)
    (htype : fitsColumn 512 eventType = true) :
    (∃ order', recordOutcome py fresh { order with status := newStatus } newStatus eventType payload = .ok order' ∧
      order'.storable = true) ↔ newStatus.recordable py payload = true := by
  cases newStatus with
  | confirmed => exact recordConfirmed_storable hstorable
  | failed => exact recordFailed_storable .failed hstorable htype
  | timeout => exact recordFailed_storable .timeout hstorable htype
  | created | pendingPayment | processing | expired | canceled | refunded => exact iff_of_true ⟨_, rfl, hstorable⟩ rfl

theorem applyCorpxEvent_taken :
    applyCorpxEvent py fresh order webhook.eventType payload =
      (match takenStatus webhook order with
      | none => pure (order, none)
      | some newStatus => do
        let order ← recordOutcome py fresh { order with status := newStatus } newStatus webhook.eventType payload
        pure (order, some newStatus)) := by
  unfold applyCorpxEvent takenStatus
  cases corpxEventToStatus webhook.eventType with
  | none => rfl
  | some newStatus => cases hallowed : isTransitionAllowed order.status newStatus <;> simp [Option.filter, hallowed]

theorem applyCorpxEvent_recordable (hstorable : order.storable = true) (htype : fitsColumn 100 webhook.eventType = true) :
    (∃ changed newStatus, applyCorpxEvent py fresh order webhook.eventType payload = .ok (changed, newStatus) ∧
      changed.storable = true) ↔ (takenStatus webhook order).all (PixOrderStatus.recordable py payload) = true := by
  rw [applyCorpxEvent_taken]
  cases takenStatus webhook order with
  | none => exact iff_of_true ⟨order, none, rfl, hstorable⟩ rfl
  | some newStatus =>
    have hrecord : (∃ order', recordOutcome py fresh { order with status := newStatus } newStatus webhook.eventType payload =
        .ok order' ∧ order'.storable = true) ↔ _ :=
      recordOutcome_recordable newStatus hstorable (fitsColumn_mono htype (by decide))
    rw [Option.all_some, ← hrecord]
    constructor
    · rintro ⟨changed, _, happly, hfits⟩
      obtain ⟨order', hrecord, happly⟩ := bind_eq_ok.mp happly
      cases pure_eq_ok.mp happly
      exact ⟨changed, hrecord, hfits⟩
    · rintro ⟨order', hrecord, hfits⟩
      exact ⟨order', some newStatus, bind_eq_ok.mpr ⟨order', hrecord, rfl⟩, hfits⟩

theorem applyCorpxEvent_id {changed : PixOrder} {newStatus : Option PixOrderStatus}
    (h : applyCorpxEvent py fresh order webhook.eventType payload = .ok (changed, newStatus)) : changed.id = order.id := by
  rcases applyCorpxEvent_inv h with ⟨rfl, -⟩ | ⟨hsame, -⟩
  · rfl
  · exact hsame.id

variable (hfind : findOrderById db order.id = some order) (hstorable : order.storable = true)
  (hevent : Table.find PixEvent.eventId webhook.eventId db.pixEvents = none)
  (hcallback : Table.find OutboxCallback.eventId fresh.callbackEventId db.outboxCallbacks = none)
include hfind hstorable hevent hcallback

/-- The event of a stored order is committed exactly if what it records can be stored. -/
theorem webhookChange_commits :
    (∃ change, webhookChange py settings fresh webhook order = .ok change ∧ ∃ db', db.commit change = .ok db') ↔
      webhook.recordable py order = true := by
  have hlands : ∀ changed newStatus,
      applyCorpxEvent py fresh order webhook.eventType webhook.data = .ok (changed, newStatus) →
      ((∃ db', db.commit
          { loaded := order
            order := changed
            event := some
              { eventId := webhook.eventId, pixOrderId := order.id, source := "corpx_webhook",
                eventType := webhook.eventType, payloadJson := some webhook.rawPayload }
            callback := (newStatus.filter (· ∈ callbackStatuses)).map fun _ => callbackOf settings fresh changed } = .ok db') ↔
        changed.storable = true ∧ (fitsColumn 255 webhook.eventId = true ∧ fitsColumn 100 webhook.eventType = true) ∧
          webhook.rawPayload.plain = true) := by
    intro changed newStatus happly
    have hsource : fitsColumn 50 "corpx_webhook" = true := by decide
    refine (Change.Lands.commit_iff ⟨hfind, applyCorpxEvent_id happly, applyCorpxEvent_written happly, ?_, ?_⟩).trans ?_
    · rintro e ⟨⟩
      exact ⟨hevent, rfl⟩
    · intro c hc
      obtain ⟨_, -, rfl⟩ := Option.map_eq_some_iff.mp hc
      exact hcallback
    · simp [PixEvent.storable, hsource]
  unfold CorpXWebhook.recordable
  rw [Bool.and_eq_true, Bool.and_eq_true, Bool.and_eq_true]
  constructor
  · rintro ⟨change, hchange, hcommit⟩
    obtain ⟨⟨changed, newStatus⟩, happly, hchange⟩ := bind_eq_ok.mp hchange
    cases pure_eq_ok.mp hchange
    obtain ⟨hfits, hlogged⟩ := (hlands changed newStatus happly).mp hcommit
    exact ⟨hlogged, (applyCorpxEvent_recordable hstorable hlogged.1.2).mp ⟨changed, newStatus, happly, hfits⟩⟩
  · rintro ⟨hlogged, htaken⟩
    obtain ⟨changed, newStatus, happly, hfits⟩ := (applyCorpxEvent_recordable hstorable hlogged.1.2).mpr htaken
    exact ⟨_, bind_eq_ok.mpr ⟨(changed, newStatus), happly, rfl⟩, (hlands changed newStatus happly).mpr ⟨hfits, hlogged⟩⟩

end Order

/-! ### Events of a collection -/

section Collection
variable {settings : Settings} {fresh : Fresh} {tables : Tables} {webhook : CorpXWebhook} {collection : CollectionOrder}

theorem collectionStorable_endToEndId (endToEndId : Option String) (paidAt : Option DateTime) (status : CollectionStatus)
    (h : collection.storable = true) :
    { collection with status, paidAt, endToEndId }.storable =
      endToEndId.all (fitsColumn 255) := by
  unfold CollectionOrder.storable CollectionOrder.textColumns at h ⊢
  simp only [List.all_cons, List.all_nil, Bool.and_true, Bool.and_eq_true] at h
  simp only [List.all_cons, List.all_nil, Bool.and_true, h, Bool.true_and]

/-- Committed on the collection that it was made of, a change is written as it is. -/
theorem commitCollection_loaded {change : CollectionChange} (hfind : findCollectionById tables change.loaded.id = some change.loaded)
    (hwritten : CollectionOrder.written change.loaded change.collection change.loaded = change.collection)
    (hcallback : ∀ c ∈ change.callback, Table.find OutboxCallback.eventId c.eventId tables.db.outboxCallbacks = none) :
    (∃ tables', tables.commitCollection change = .ok tables') ↔ change.collection.storable = true := by
  unfold Tables.commitCollection
  rw [hfind]
  simp only [orThrow, bind, Except.bind, hwritten, insertIf_callback hcallback]
  cases change.collection.storable with
  | false =>
    refine iff_of_false ?_ Bool.false_ne_true
    rintro ⟨tables', h⟩
    cases h
  | true => exact iff_of_true ⟨_, rfl⟩ rfl

theorem collectionEndToEndId_fits {data : Json} :
    (∃ endToEndId, collectionEndToEndId data = .ok endToEndId ∧
      endToEndId.all (fitsColumn 255) = true) ↔ fitsEndToEndId data = true := by
  unfold collectionEndToEndId fitsEndToEndId
  have hvalue : ∀ value : Json, (∃ endToEndId, some <$> columnText value = .ok endToEndId ∧
      endToEndId.all (fitsColumn 255) = true) ↔ fits 255 (some value) = true := by
    intro value
    rw [fits_some]
    constructor
    · rintro ⟨endToEndId, hread, hfits⟩
      obtain ⟨text, htext, rfl⟩ := map_eq_ok.mp hread
      exact ⟨text, htext, hfits⟩
    · rintro ⟨text, htext, hfits⟩
      exact ⟨some text, map_eq_ok.mpr ⟨text, htext, rfl⟩, hfits⟩
  rcases data.field? "endToEndId" with _ | value
  · exact iff_of_true ⟨none, rfl, rfl⟩ rfl
  · cases value with
    | null => exact iff_of_true ⟨none, rfl, rfl⟩ rfl
    | string _ | bool _ | number _ | nonFinite _ | array _ | object _ => exact hvalue _

/-- The event of a stored collection is committed exactly if what it pays with can be stored. -/
theorem processCollectionEvent_commits (hfind : findCollectionById tables collection.id = some collection)
    (hstorable : collection.storable = true)
    (hcallback : Table.find OutboxCallback.eventId fresh.callbackEventId tables.db.outboxCallbacks = none) :
    (∃ change, processCollectionEvent settings fresh collection webhook.eventType webhook.data = .ok change ∧
      ∃ tables', tables.commitCollection change = .ok tables') ↔ webhook.payable = true := by
  unfold processCollectionEvent CorpXWebhook.payable
  by_cases hpays : webhook.eventType = "qrcode.paid" ∨ webhook.eventType = "pix.in.completed"
  · rw [if_pos hpays, decide_eq_false (not_not_intro hpays), Bool.false_or, ← collectionEndToEndId_fits]
    have hpaid : ∀ endToEndId : Option String,
        (∃ tables', tables.commitCollection
          ⟨collection, { collection with status := .paid, paidAt := some fresh.now, endToEndId },
            some (collectionCallback settings fresh
              { collection with status := .paid, paidAt := some fresh.now, endToEndId })⟩ = .ok tables') ↔
          endToEndId.all (fitsColumn 255) = true := by
      intro endToEndId
      rw [← collectionStorable_endToEndId endToEndId (some fresh.now) .paid hstorable]
      refine commitCollection_loaded hfind (by simp [CollectionOrder.written]) ?_
      rintro c ⟨⟩
      exact hcallback
    constructor
    · rintro ⟨change, hchange, hcommit⟩
      obtain ⟨endToEndId, hread, hchange⟩ := bind_eq_ok.mp hchange
      cases pure_eq_ok.mp hchange
      exact ⟨endToEndId, hread, (hpaid endToEndId).mp hcommit⟩
    · rintro ⟨endToEndId, hread, hfits⟩
      exact ⟨_, bind_eq_ok.mpr ⟨endToEndId, hread, rfl⟩, (hpaid endToEndId).mpr hfits⟩
  · rw [if_neg hpays, decide_eq_true hpays, Bool.true_or]
    refine iff_of_true ?_ rfl
    split
    · exact ⟨_, rfl, (commitCollection_loaded hfind (by simp [CollectionOrder.written]) (by rintro _ ⟨⟩)).mpr hstorable⟩
    · exact ⟨_, rfl, (commitCollection_loaded hfind (by simp [CollectionOrder.written]) (by rintro _ ⟨⟩)).mpr hstorable⟩

end Collection

/-! ### Answers -/

section Answers
variable {env : ServiceEnv} {fresh : Fresh} {tables : Tables} {webhook : CorpXWebhook}

section Standing
variable (horders : Table.Keyed PixOrder.id tables.db.pixOrders) (hfits : ∀ order ∈ tables.db.pixOrders, order.storable = true)
  (hcollections : CollectionsStanding tables)
  (hevent : Table.find PixEvent.eventId webhook.eventId tables.db.pixEvents = none)
  (hcallback : Table.find OutboxCallback.eventId fresh.callbackEventId tables.db.outboxCallbacks = none)
include hcollections hcallback

theorem processCollectionEvent_answers (hreads : webhook.readsQrCode = true)
    (hkeys : traceable tables.db webhook.keys = true) (hnone : namedOrder tables.db webhook.keys = none) :
    (∃ tables', tables.processCollectionEvent env fresh webhook = .ok tables') ↔
      ((namedCollection webhook tables).isSome = true → webhook.payable = true) := by
  unfold Tables.processCollectionEvent
  rw [findCollectionForEvent_ok hreads hkeys hnone]
  cases hnamed : namedCollection webhook tables with
  | none => exact iff_of_true ⟨tables, rfl⟩ nofun
  | some collection =>
    obtain ⟨text, -, hfind⟩ := Option.bind_eq_some_iff.mp hnamed
    have hmem := Table.mem_of_find hfind
    have hcommits : (∃ change, processCollectionEvent env.settings fresh collection webhook.eventType webhook.data =
        .ok change ∧ ∃ tables', tables.commitCollection change = .ok tables') ↔ webhook.payable = true :=
      processCollectionEvent_commits ((Table.find_eq_some hcollections.keyed).mpr ⟨hmem, rfl⟩)
        (hcollections.storable collection hmem) hcallback
    refine Iff.trans ?_ (hcommits.trans ⟨fun h _ => h, fun h => h rfl⟩)
    show (∃ tables', processCollectionEvent env.settings fresh collection webhook.eventType webhook.data >>=
      tables.commitCollection = .ok tables') ↔ _
    constructor
    · rintro ⟨tables', h⟩
      obtain ⟨change, hchange, hcommit⟩ := bind_eq_ok.mp h
      exact ⟨change, hchange, tables', hcommit⟩
    · rintro ⟨change, hchange, tables', hcommit⟩
      exact ⟨tables', bind_eq_ok.mpr ⟨change, hchange, hcommit⟩⟩

include horders hfits hevent

/-- A webhook that is neither ignored nor known is processed exactly if all that it reads can be read and stored. -/
theorem processWebhookEvent_answers :
    (∃ tables', tables.processWebhookEvent env fresh webhook = .ok tables') ↔ webhook.Readable env.py tables := by
  constructor
  · rintro ⟨tables', h⟩
    obtain ⟨keys, hkeys, h⟩ := bind_eq_ok.mp h
    have hreads := readsQrCode_of_orderKeys hkeys
    obtain rfl : webhook.keys = keys := Except.ok.inj ((orderKeys_ok hreads).symm.trans hkeys)
    obtain ⟨found, hfound, h⟩ := bind_eq_ok.mp h
    have htraceable := traceable_of_findOrderForEvent hfound
    obtain rfl : namedOrder tables.db webhook.keys = found :=
      Except.ok.inj ((findOrderForEvent_ok htraceable).symm.trans hfound)
    refine ⟨hreads, htraceable, fun order horder => ?_, fun hnone => ?_⟩
    · rw [Option.mem_def.mp horder] at h
      obtain ⟨change, hchange, h⟩ := bind_eq_ok.mp h
      obtain ⟨db', hcommit, -⟩ := bind_eq_ok.mp h
      have hmem := namedOrder_mem horder
      exact (webhookChange_commits ((Table.find_eq_some horders).mpr ⟨hmem, rfl⟩) (hfits order hmem) hevent hcallback).mp
        ⟨change, hchange, db', hcommit⟩
    · rw [hnone] at h
      exact (processCollectionEvent_answers hcollections hcallback hreads htraceable hnone).mp ⟨tables', h⟩
  · rintro ⟨hreads, htraceable, horder, hcollection⟩
    have hfound := findOrderForEvent_ok htraceable
    cases hnamed : namedOrder tables.db webhook.keys with
    | none =>
      have hanswers : (∃ tables', tables.processCollectionEvent env fresh webhook = .ok tables') ↔ _ :=
        processCollectionEvent_answers hcollections hcallback hreads htraceable hnamed
      obtain ⟨tables', h⟩ := hanswers.mpr (hcollection hnamed)
      refine ⟨tables', bind_eq_ok.mpr ⟨_, orderKeys_ok hreads, bind_eq_ok.mpr ⟨none, hnamed ▸ hfound, h⟩⟩⟩
    | some order =>
      have hmem := namedOrder_mem hnamed
      have hcommits : (∃ change, webhookChange env.py env.settings fresh webhook order = .ok change ∧
          ∃ db', tables.db.commit change = .ok db') ↔ _ :=
        webhookChange_commits ((Table.find_eq_some horders).mpr ⟨hmem, rfl⟩) (hfits order hmem) hevent hcallback
      obtain ⟨change, hchange, db', hcommit⟩ := hcommits.mpr (horder order hnamed)
      exact ⟨_, bind_eq_ok.mpr ⟨_, orderKeys_ok hreads, bind_eq_ok.mpr ⟨some order, hnamed ▸ hfound,
        bind_eq_ok.mpr ⟨change, hchange, bind_eq_ok.mpr ⟨db', hcommit, rfl⟩⟩⟩⟩⟩

end Standing

theorem handleCorpxWebhook_answers (horders : Table.Keyed PixOrder.id tables.db.pixOrders)
    (hfits : ∀ order ∈ tables.db.pixOrders, order.storable = true) (hcollections : CollectionsStanding tables)
    (hcallback : Table.find OutboxCallback.eventId fresh.callbackEventId tables.db.outboxCallbacks = none) :
    (∃ status tables', handleCorpxWebhook env fresh tables webhook = .ok (status, tables')) ↔
      Answerable webhook env tables := by
  unfold handleCorpxWebhook Answerable
  cases ofOtherAccount env webhook with
  | true => exact iff_of_true ⟨_, _, rfl⟩ (.inl rfl)
  | false =>
    by_cases hid : fitsText webhook.eventId = true
    · have hprocessed : eventAlreadyProcessed tables.db webhook.eventId = .ok _ :=
        eventAlreadyProcessed_eq_ok.mpr ⟨hid, rfl⟩
      rw [hprocessed]
      cases hevent : Table.find PixEvent.eventId webhook.eventId tables.db.pixEvents with
      | some event => exact iff_of_true ⟨_, _, rfl⟩ (.inr ⟨hid, .inl rfl⟩)
      | none =>
        have hprocess : (∃ tables', tables.processWebhookEvent env fresh webhook = .ok tables') ↔ _ :=
          processWebhookEvent_answers horders hfits hcollections hevent hcallback
        refine Iff.trans ?_ (hprocess.trans (by simp [hid]))
        constructor
        · rintro ⟨_, _, h⟩
          obtain ⟨_, ⟨⟩, h⟩ := bind_eq_ok.mp h
          obtain ⟨tables', h, -⟩ := bind_eq_ok.mp h
          exact ⟨tables', h⟩
        · rintro ⟨tables', h⟩
          exact ⟨.ok, tables', bind_eq_ok.mpr ⟨false, rfl, bind_eq_ok.mpr ⟨tables', h, rfl⟩⟩⟩
    · refine iff_of_false ?_ (by simp [hid])
      rintro ⟨_, _, h⟩
      obtain ⟨_, hprocessed, -⟩ := bind_eq_ok.mp h
      exact hid (eventAlreadyProcessed_eq_ok.mp hprocessed).1

end Answers

section Runs

/-- A service whose webhooks need no secret, and whose bodies all denote one value. -/
def plainWebhooks (body : Json) : WebhookEnv :=
  { testService with corpxWebhookSecret := "", hmacSha256 := fun _ _ => Vector.replicate 32 0, loads := fun _ => .ok body }

def signedWebhook : WebhookRequest := ⟨[], none, some "signature"⟩

def paymentOf (data : Json) : Json := .object [("eventId", .string "event"), ("eventType", .string "qrcode.paid"), ("data", data)]

end Runs
end CredBridge.PixService
