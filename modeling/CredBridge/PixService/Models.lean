import CredBridge.Lib.Json
import CredBridge.Lib.Result
import CredBridge.Lib.Table
import CredBridge.PixService.Status

/-! # The tables of the Pix service

Orders, the log of their events, and the outbox of callbacks, with what the database enforces when a row is
written: unique keys, the range of the integer column, the widths of the text columns, and that no text has the
character zero, which PostgreSQL stores neither as a text nor in a JSON value. A handler's writes are committed
together or not at all. -/

namespace CredBridge.PixService
open Result

/-- Points in time, in seconds. -/
abbrev DateTime := Int

inductive PyError where
  | valueError (message : String)
  | runtimeError (message : String)
  | typeError
  | databaseError
  | other
deriving DecidableEq, Repr

structure PixOrder where
  id : String
  externalId : String
  identifier : String
  type : PixOrderType
  ownerId : String
  ownerRole : OwnerRole
  amountCents : Int
  status : PixOrderStatus
  corpxAccountId : Option String := none
  corpxTenantId : Option String := none
  corpxPixKey : Option String := none
  corpxTxid : Option String := none
  corpxPaymentId : Option String := none
  corpxTransactionId : Option String := none
  endToEndId : Option String := none
  qrCodePayload : Option String := none
  qrCodeLocation : Option String := none
  qrCodeBase64 : Option String := none
  pixKey : Option String := none
  pixKeyType : Option String := none
  description : Option String := none
  metadataJson : Option Json := none
  expiresAt : Option DateTime := none
  confirmedAt : Option DateTime := none
  failedAt : Option DateTime := none
  failureReason : Option String := none

structure PixEvent where
  eventId : String
  pixOrderId : String
  source : String
  eventType : String
  payloadJson : Option Json

inductive CallbackStatus where
  | pending
  | sent
  | failed
deriving DecidableEq, Repr

structure OutboxCallback where
  eventId : String
  pixOrderId : Option String
  targetUrl : String
  payloadJson : Json
  status : CallbackStatus
  attemptCount : Nat
  nextAttemptAt : Option DateTime
  lastError : Option String
  createdAt : DateTime

structure Db where
  pixOrders : List PixOrder
  pixEvents : List PixEvent
  outboxCallbacks : List OutboxCallback

def Db.empty : Db := ⟨[], [], []⟩

def PixOrder.amount (order : PixOrder) : Rat := order.amountCents / 100

def PixOrder.textColumns (o : PixOrder) : List (Nat × Option String) :=
  [(255, some o.externalId), (35, some o.identifier), (255, some o.ownerId), (255, o.corpxAccountId),
    (255, o.corpxTenantId), (255, o.corpxPixKey), (255, o.corpxTxid), (255, o.corpxPaymentId),
    (255, o.corpxTransactionId), (255, o.endToEndId), (512, o.qrCodeLocation), (255, o.pixKey),
    (20, o.pixKeyType), (512, o.description), (512, o.failureReason)]

/-- A text for a column of this width. -/
def fitsColumn (width : Nat) (text : String) : Bool := decide (text.length ≤ width) && !Json.hasNul text

/-- A text for a column of any width. -/
def fitsText (text : String) : Bool := !Json.hasNul text

/-- The row fits in the columns: the cents in 32 bits, each text in its width, and the metadata. -/
def PixOrder.storable (o : PixOrder) : Bool :=
  decide (-2 ^ 31 ≤ o.amountCents ∧ o.amountCents < 2 ^ 31) &&
    ((o.textColumns.all fun c => c.2.all (fitsColumn c.1)) && o.qrCodePayload.all fitsText &&
      o.qrCodeBase64.all fitsText && o.metadataJson.all Json.plain)

/-- The texts and the payload of the row fit in their columns. -/
def PixEvent.storable (event : PixEvent) : Bool :=
  fitsColumn 255 event.eventId && fitsColumn 50 event.source && fitsColumn 100 event.eventType &&
    event.payloadJson.all Json.plain

section Db
variable (db : Db)

def findOrderById (id : String) : Option PixOrder := Table.find PixOrder.id id db.pixOrders

def findOrderByExternalId (externalId : String) : Option PixOrder :=
  Table.find PixOrder.externalId externalId db.pixOrders

def findOrderByIdentifier (identifier : String) : Option PixOrder :=
  Table.find PixOrder.identifier identifier db.pixOrders

/-- `event_already_processed`. -/
def eventAlreadyProcessed (eventId : String) : Except PyError Bool := do
  throwIf (fitsText eventId = false) .databaseError
  pure (Table.find PixEvent.eventId eventId db.pixEvents).isSome

def Db.insertOrder (order : PixOrder) : Except PyError Db := do
  throwIf ((findOrderById db order.id).isSome ∨ (findOrderByExternalId db order.externalId).isSome ∨
    (findOrderByIdentifier db order.identifier).isSome) .databaseError
  throwIf (order.storable = false) .databaseError
  pure { db with pixOrders := db.pixOrders ++ [order] }

/-- The row of an order that was loaded before. -/
def Db.updateOrder (order : PixOrder) : Except PyError Db := do
  throwIf (order.storable = false) .databaseError
  pure { db with pixOrders := Table.modify PixOrder.id order.id (fun _ => order) db.pixOrders }

def Db.insertEvent (event : PixEvent) : Except PyError Db := do
  throwIf ((Table.find PixEvent.eventId event.eventId db.pixEvents).isSome) .databaseError
  throwIf ((findOrderById db event.pixOrderId).isNone) .databaseError
  throwIf (event.storable = false) .databaseError
  pure { db with pixEvents := db.pixEvents ++ [event] }

def Db.insertCallback (callback : OutboxCallback) : Except PyError Db := do
  throwIf ((Table.find OutboxCallback.eventId callback.eventId db.outboxCallbacks).isSome) .databaseError
  pure { db with outboxCallbacks := db.outboxCallbacks ++ [callback] }

end Db

theorem fitsColumn_eq_true {width : Nat} {text : String} :
    fitsColumn width text = true ↔ text.length ≤ width ∧ fitsText text = true := by
  unfold fitsColumn fitsText
  rw [Bool.and_eq_true, decide_eq_true_iff]

theorem fitsColumn_mono {width width' : Nat} {text : String} (h : fitsColumn width text = true) (hle : width ≤ width') :
    fitsColumn width' text = true := by
  rw [fitsColumn_eq_true] at h ⊢
  exact ⟨h.1.trans hle, h.2⟩

theorem eventAlreadyProcessed_eq_ok {db : Db} {eventId : String} {processed : Bool} :
    eventAlreadyProcessed db eventId = .ok processed ↔ fitsText eventId = true ∧
      (Table.find PixEvent.eventId eventId db.pixEvents).isSome = processed := by
  unfold eventAlreadyProcessed
  rw [throwIf_bind_eq_ok, Bool.not_eq_false]
  exact and_congr_right fun _ => ⟨fun h => Except.ok.inj h, fun h => congrArg _ h⟩

theorem eventAlreadyProcessed_eq_false {db : Db} {eventId : String} :
    eventAlreadyProcessed db eventId = .ok false ↔ fitsText eventId = true ∧
      Table.find PixEvent.eventId eventId db.pixEvents = none := by
  rw [eventAlreadyProcessed_eq_ok, Option.isSome_eq_false_iff, Option.isNone_iff_eq_none]

section Writes
variable {db db' : Db}

theorem Db.insertOrder_inv {order : PixOrder} (h : db.insertOrder order = .ok db') :
    findOrderById db order.id = none ∧ findOrderByExternalId db order.externalId = none ∧
      findOrderByIdentifier db order.identifier = none ∧ db' = { db with pixOrders := db.pixOrders ++ [order] } := by
  obtain ⟨hnew, h⟩ := throwIf_bind_eq_ok.mp h
  obtain ⟨-, h⟩ := throwIf_bind_eq_ok.mp h
  simp only [not_or, Option.not_isSome_iff_eq_none] at hnew
  exact ⟨hnew.1, hnew.2.1, hnew.2.2, (pure_eq_ok.mp h).symm⟩

theorem Db.updateOrder_inv {order : PixOrder} (h : db.updateOrder order = .ok db') :
    db' = { db with pixOrders := Table.modify PixOrder.id order.id (fun _ => order) db.pixOrders } := by
  obtain ⟨-, h⟩ := throwIf_bind_eq_ok.mp h
  exact (pure_eq_ok.mp h).symm

theorem updateOrder_storable {order : PixOrder} (h : db.updateOrder order = .ok db') : order.storable = true := by
  obtain ⟨hstorable, -⟩ := throwIf_bind_eq_ok.mp h
  exact Bool.not_eq_false _ ▸ hstorable

theorem findOrderById_modify {order order' : PixOrder} (hfind : findOrderById db order.id = some order)
    (hid : order'.id = order.id)
    (horders : db'.pixOrders = Table.modify PixOrder.id order.id (fun _ => order') db.pixOrders) :
    findOrderById db' order.id = some order' := by
  have hmodify : Table.find PixOrder.id order.id
      (Table.modify PixOrder.id order.id (fun _ => order') db.pixOrders) = _ := Table.find_modify fun _ _ => hid
  have horder : Table.find PixOrder.id order.id db.pixOrders = some order := hfind
  unfold findOrderById
  rw [horders, hmodify, horder, Option.map_some, if_pos rfl]

theorem Db.insertEvent_inv {event : PixEvent} (h : db.insertEvent event = .ok db') :
    Table.find PixEvent.eventId event.eventId db.pixEvents = none ∧
      db' = { db with pixEvents := db.pixEvents ++ [event] } := by
  obtain ⟨hnew, h⟩ := throwIf_bind_eq_ok.mp h
  obtain ⟨-, h⟩ := throwIf_bind_eq_ok.mp h
  obtain ⟨-, h⟩ := throwIf_bind_eq_ok.mp h
  exact ⟨Option.not_isSome_iff_eq_none.mp hnew, (pure_eq_ok.mp h).symm⟩

theorem Db.insertCallback_inv {callback : OutboxCallback} (h : db.insertCallback callback = .ok db') :
    Table.find OutboxCallback.eventId callback.eventId db.outboxCallbacks = none ∧
      db' = { db with outboxCallbacks := db.outboxCallbacks ++ [callback] } := by
  obtain ⟨hnew, h⟩ := throwIf_bind_eq_ok.mp h
  exact ⟨Option.not_isSome_iff_eq_none.mp hnew, (pure_eq_ok.mp h).symm⟩

end Writes
end CredBridge.PixService
