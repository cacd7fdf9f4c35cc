import CredBridge.PixService.Outbox

/-! # Collections

A collection is what the debtor of an invoice is to pay when it falls due. An event of the provider that names it, and a
cancellation, load it, and commit what they made of the copy they loaded: the columns in which the copy differs, and
the callback that reports a payment. -/

namespace CredBridge.PixService
open Result

inductive CollectionStatus where
  | pendingPayment
  | paid
  | expired
  | canceled
  | failed
deriving DecidableEq, Repr

structure CollectionOrder where
  id : String
  receivableId : String
  pmeUserId : String
  createdFromWithdrawalOrderId : Option String := none
  debtorName : String
  debtorDocument : String
  amountCents : Int
  dueDate : DateTime
  paymentDeadline : DateTime
  status : CollectionStatus
  corpxAccountId : Option String := none
  corpxPixKey : Option String := none
  identifier : String
  corpxTxid : Option String := none
  qrCodePayload : Option String := none
  qrCodeLocation : Option String := none
  qrCodeBase64 : Option String := none
  endToEndId : Option String := none
  metadataJson : Option Json := none
  paidAt : Option DateTime := none

structure CreateCollectionOrderRequest where
  receivableId : String
  pmeUserId : String
  debtorName : String
  debtorDocument : String
  amount : Rat
  dueDate : DateTime
  paymentDeadline : DateTime
  metadata : Option Json

/-- What a session makes of a collection, and the callback that it adds. -/
structure CollectionChange where
  loaded : CollectionOrder
  collection : CollectionOrder
  callback : Option OutboxCallback

/-- The tables of the service: the orders with their events and callbacks, and the collections. -/
structure Tables where
  db : Db
  collectionOrders : List CollectionOrder

def CollectionOrder.amount (collection : CollectionOrder) : Rat := collection.amountCents / 100

def CollectionOrder.textColumns (c : CollectionOrder) : List (Nat × Option String) :=
  [(255, some c.receivableId), (255, some c.pmeUserId), (255, some c.debtorName), (20, some c.debtorDocument),
    (255, c.corpxAccountId), (255, c.corpxPixKey), (35, some c.identifier), (255, c.corpxTxid),
    (512, c.qrCodeLocation), (255, c.endToEndId)]

/-- The row fits in the columns: the cents in 32 bits, each text in its width, and the metadata. -/
def CollectionOrder.storable (c : CollectionOrder) : Bool :=
  decide (-2 ^ 31 ≤ c.amountCents ∧ c.amountCents < 2 ^ 31) &&
    ((c.textColumns.all fun column => column.2.all (fitsColumn column.1)) && c.qrCodePayload.all fitsText &&
      c.qrCodeBase64.all fitsText && c.metadataJson.all Json.plain)

def CollectionOrder.written (loaded changed stored : CollectionOrder) : CollectionOrder :=
  { stored with
    status := PixService.written loaded.status changed.status stored.status
    endToEndId := PixService.written loaded.endToEndId changed.endToEndId stored.endToEndId
    paidAt := PixService.written loaded.paidAt changed.paidAt stored.paidAt }

section Tables
variable (tables : Tables)

def findCollectionById (id : String) : Option CollectionOrder :=
  Table.find CollectionOrder.id id tables.collectionOrders

def findCollectionByIdentifier (identifier : String) : Option CollectionOrder :=
  Table.find CollectionOrder.identifier identifier tables.collectionOrders

def Tables.insertCollection (collection : CollectionOrder) : Except PyError Tables := do
  throwIf ((findCollectionById tables collection.id).isSome ∨
    (findCollectionByIdentifier tables collection.identifier).isSome) .databaseError
  throwIf (collection.storable = false) .databaseError
  pure { tables with collectionOrders := tables.collectionOrders ++ [collection] }

def Tables.commitCollection (change : CollectionChange) : Except PyError Tables := do
  let stored ← orThrow (findCollectionById tables change.loaded.id) .databaseError
  let collection := CollectionOrder.written change.loaded change.collection stored
  throwIf (collection.storable = false) .databaseError
  let db ← tables.db.insertIf Db.insertCallback change.callback
  pure ⟨db, Table.modify CollectionOrder.id collection.id (fun _ => collection) tables.collectionOrders⟩

end Tables

/-! ### What is made of a collection -/

section Collections
variable (py : Python) (settings : Settings) (fresh : Fresh)

def collectionIdentifierPrefix : String := "col"

def collectionOrder (request : CreateCollectionOrderRequest) (amountCents : Int) (qr : CreateQrCodeResult) :
    CollectionOrder where
  id := fresh.id
  receivableId := request.receivableId
  pmeUserId := request.pmeUserId
  debtorName := request.debtorName
  debtorDocument := request.debtorDocument
  amountCents := amountCents
  dueDate := request.dueDate
  paymentDeadline := request.paymentDeadline
  status := .pendingPayment
  corpxAccountId := some settings.corpxAccountId
  corpxPixKey := some settings.corpxReceiverPixKey
  identifier := generateIdentifier collectionIdentifierPrefix fresh.nanoid
  corpxTxid := some qr.txid
  qrCodePayload := some qr.payload
  qrCodeLocation := some qr.location
  qrCodeBase64 := if qr.payload = "" then none else py.generateQrBase64 qr.payload
  metadataJson := request.metadata

def createCollection (tables : Tables) (request : CreateCollectionOrderRequest)
    (createDynamicQr : Except PyError CreateQrCodeResult) : Except PyError Tables := do
  let amountCents ← brlToCents py request.amount
  let qr ← createDynamicQr
  tables.insertCollection (collectionOrder py settings fresh request amountCents qr)

/-- The callback that reports the payment. It has no next attempt: the column is left to its default. -/
def collectionCallback (collection : CollectionOrder) : OutboxCallback where
  eventId := fresh.callbackEventId
  pixOrderId := collection.createdFromWithdrawalOrderId
  targetUrl := settings.credbridgeApiUrl ++ settings.credbridgePixWebhookPath
  payloadJson :=
    .object [("eventId", .string fresh.callbackEventId), ("type", .string "COLLECTION"),
      ("collectionOrderId", .string collection.id), ("receivableId", .string collection.receivableId),
      ("identifier", .string collection.identifier), ("status", .string "PAID"), ("amount", .number collection.amount),
      ("endToEndId", optional collection.endToEndId), ("paidAt", isoformat collection.paidAt)]
  status := .pending
  attemptCount := 0
  nextAttemptAt := none
  lastError := none
  createdAt := fresh.transactionStart

/-- `data.get("endToEndId")`, in a text column. -/
def collectionEndToEndId (data : Json) : Except PyError (Option String) :=
  match data.field? "endToEndId" with
  | none | some .null => pure none
  | some value => some <$> columnText value

/-- `_process_collection_event`: what an event makes of a collection, whatever its status. -/
def processCollectionEvent (collection : CollectionOrder) (eventType : String) (data : Json) :
    Except PyError CollectionChange :=
  if eventType = "qrcode.paid" ∨ eventType = "pix.in.completed" then do
    let endToEndId ← collectionEndToEndId data
    let paid := { collection with status := .paid, paidAt := some fresh.now, endToEndId }
    pure ⟨collection, paid, some (collectionCallback settings fresh paid)⟩
  else if eventType = "qrcode.expired" ∨ eventType = "qrcode.cancelled" then
    pure ⟨collection, { collection with status := if eventType = "qrcode.expired" then .expired else .canceled }, none⟩
  else
    pure ⟨collection, collection, none⟩

/-- The collection of a cancellation, if its status allows one. -/
def cancellableCollection (tables : Tables) (collectionId : String) : Option CollectionOrder :=
  (findCollectionById tables collectionId).filter fun c => decide (c.status ∉ [.paid, .canceled, .expired])

def cancelCollectionChange (collection : CollectionOrder) : CollectionChange :=
  ⟨collection, { collection with status := .canceled }, none⟩

/-- `data.identifier`, that of the QR code, or that of the whole payload. -/
def eventIdentifier (webhook : CorpXWebhook) : Except PyError (Option Json) := do
  let nested ← orElse (webhook.data.field? "identifier") (qrField webhook.data "identifier")
  orElse nested (pure (webhook.rawPayload.field? "identifier"))

def findCollectionForEvent (tables : Tables) (webhook : CorpXWebhook) : Except PyError (Option CollectionOrder) := do
  match (← eventIdentifier webhook).filter Json.truthy with
  | none => pure none
  | some identifier => pure (findCollectionByIdentifier tables (← columnText identifier))

end Collections

/-! ### Changes and commits -/

section Changes
variable {settings : Settings} {fresh : Fresh} {collection : CollectionOrder} {change : CollectionChange}
  {tables tables' : Tables}

/-- A change pays the collection, closes it, or leaves it as it is. -/
inductive CollectionChange.Made (settings : Settings) (change : CollectionChange) : Prop where
  | paid (fresh : Fresh) (endToEndId : Option String)
      (hcollection : change.collection =
        { change.loaded with status := .paid, paidAt := some fresh.now, endToEndId := endToEndId })
      (hcallback : change.callback = some (collectionCallback settings fresh change.collection))
  | closed (status : CollectionStatus) (hpaid : status ≠ .paid)
      (hcollection : change.collection = { change.loaded with status }) (hcallback : change.callback = none)
  | kept (hcollection : change.collection = change.loaded) (hcallback : change.callback = none)

/-- What a change adds to the outbox reports its collection. -/
theorem CollectionChange.Made.callbackOf (hmade : change.Made settings) :
    ∀ callback ∈ change.callback, ∃ fresh, callback = collectionCallback settings fresh change.collection := by
  intro callback hmem
  rcases hmade with ⟨fresh, _, -, hcallback⟩ | ⟨_, -, -, hcallback⟩ | ⟨-, hcallback⟩
  · exact ⟨fresh, Option.some.inj (hmem.symm.trans hcallback)⟩
  · cases hmem.symm.trans hcallback
  · cases hmem.symm.trans hcallback

theorem processCollectionEvent_made {eventType : String} {data : Json}
    (h : processCollectionEvent settings fresh collection eventType data = .ok change) :
    change.loaded = collection ∧ change.Made settings := by
  unfold processCollectionEvent at h
  split at h
  · obtain ⟨endToEndId, -, h⟩ := bind_eq_ok.mp h
    cases pure_eq_ok.mp h
    exact ⟨rfl, .paid fresh endToEndId rfl rfl⟩
  · split at h
    · cases pure_eq_ok.mp h
      refine ⟨rfl, .closed _ ?_ rfl rfl⟩
      split <;> nofun
    · cases pure_eq_ok.mp h
      exact ⟨rfl, .kept rfl rfl⟩

theorem cancelCollectionChange_made (collection : CollectionOrder) :
    (cancelCollectionChange collection).Made settings :=
  .closed .canceled nofun rfl rfl

/-- The stored collection takes the columns that the change wrote, and the callback joins the outbox. -/
structure CommittedCollection (tables tables' : Tables) (change : CollectionChange) (stored : CollectionOrder) :
    Prop where
  find : findCollectionById tables change.loaded.id = some stored
  collections : tables'.collectionOrders = Table.modify CollectionOrder.id stored.id
    (fun _ => CollectionOrder.written change.loaded change.collection stored) tables.collectionOrders
  db : tables.db.insertIf Db.insertCallback change.callback = .ok tables'.db

theorem commitCollection_inv (h : tables.commitCollection change = .ok tables') :
    ∃ stored, CommittedCollection tables tables' change stored := by
  obtain ⟨stored, hfind, h⟩ := orThrow_bind_eq_ok.mp h
  obtain ⟨-, h⟩ := throwIf_bind_eq_ok.mp h
  obtain ⟨db, hdb, h⟩ := bind_eq_ok.mp h
  cases pure_eq_ok.mp h
  exact ⟨stored, hfind, rfl, hdb⟩

/-- A commit of a collection leaves the orders and their events as they are. -/
theorem commitCollection_frame (h : tables.commitCollection change = .ok tables') :
    tables'.db.pixOrders = tables.db.pixOrders ∧ tables'.db.pixEvents = tables.db.pixEvents := by
  obtain ⟨_, hwritten⟩ := commitCollection_inv h
  obtain ⟨-, hdb⟩ := insertIf_callback_inv hwritten.db
  rw [hdb]
  exact ⟨rfl, rfl⟩

theorem insertCollection_inv (h : tables.insertCollection collection = .ok tables') :
    findCollectionById tables collection.id = none ∧
      tables' = { tables with collectionOrders := tables.collectionOrders ++ [collection] } := by
  obtain ⟨hnew, h⟩ := throwIf_bind_eq_ok.mp h
  obtain ⟨-, h⟩ := throwIf_bind_eq_ok.mp h
  cases pure_eq_ok.mp h
  simp only [not_or, Option.not_isSome_iff_eq_none] at hnew
  exact ⟨hnew.1, rfl⟩

end Changes
end CredBridge.PixService
