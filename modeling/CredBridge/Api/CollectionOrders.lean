import CredBridge.Api.PixCallbacks
import CredBridge.PixService.CorpxWebhooks

/-! # Collections of three stores

A collection has a row in the database of the API and one in that of the Pix service, and its QR code is the provider's.
The API asks the Pix service for a collection, which asks the provider for a QR code before it stores anything, and the API
writes the answer on its row at last. Each statement and each request can throw, with what it asked for done or not. -/

namespace CredBridge.Api
open PixService Result

structure CollectionRow extends ReceivableCollection where
  amount : Rat
  dueDate : Int
  pixOrderId : Option String := none
  pixQrCodePayload : Option String := none
  pixQrCodeLocation : Option String := none
  pixQrCodeBase64 : Option String := none

/-- A QR code that the provider made, and the receivable that it was asked for. -/
structure QrCode where
  identifier : String
  receivableId : String
  canceled : Bool := false
deriving DecidableEq

structure CollectionStores where
  collections : List CollectionRow := []
  auditLogs : List AuditLog := []
  service : Tables := ⟨.empty, []⟩
  qrCodes : List QrCode := []

/-- How a statement or a request ends. -/
inductive Ending where
  | done
  | threw (executed : Bool) (message : String)
deriving DecidableEq, Repr

def Ending.executed : Ending → Bool
  | .done => true
  | .threw executed _ => executed

/-- What the provider answers when it is asked for a QR code; it may have made one that it does not tell of. -/
inductive QrAnswer where
  | created (qr : CreateQrCodeResult)
  | failed (made : Bool) (error : PyError)

def QrAnswer.made : QrAnswer → Bool
  | .created _ => true
  | .failed made _ => made

def QrAnswer.result : QrAnswer → Except PyError CreateQrCodeResult
  | .created qr => .ok qr
  | .failed _ error => .error error

/-- What becomes of a request for a collection at the Pix service: what is drawn for it, the provider's answer, whether the
    session is committed, and how the request ends for the API if the service answers it. -/
structure Posting where
  fresh : Fresh
  qrAnswer : QrAnswer
  commits : Bool
  ending : Ending

def Posting.identifier (p : Posting) : String := generateIdentifier collectionIdentifierPrefix p.fresh.nanoid

/-- What becomes of the statements of a call, in their order. -/
structure CollectionCourse where
  id : String
  create : Ending
  auditLog : Ending
  posting : Posting
  update : Ending

namespace CollectionStores
variable (s : CollectionStores)

def findRow (id : String) : Option CollectionRow := Table.find (fun c => c.id) id s.collections

def findIdentified (identifier : String) : Option CollectionRow :=
  Table.find (fun c => c.identifier) (some identifier) s.collections

def issue (identifier receivableId : String) : CollectionStores :=
  { s with qrCodes := s.qrCodes ++ [{ identifier, receivableId }] }

/-- The provider cancels by the identifier. -/
def cancelQr (identifier : String) : CollectionStores :=
  { s with qrCodes := Table.modify QrCode.identifier identifier ({ · with canceled := true }) s.qrCodes }

/-- No other row has the columns that are unique. -/
def takesColumns (id pixOrderId identifier : String) : Bool :=
  s.collections.all fun c => decide (c.id = id ∨ c.identifier ≠ some identifier ∧ c.pixOrderId ≠ some pixOrderId)

/-- `receivableCollection.update`: what is null leaves the column as it is. -/
def updateRow (id : String) (pix : PixService.CollectionOrder) : CollectionStores :=
  { s with
    collections := Table.modify (fun c => c.id) id (fun c =>
      { c with
        pixOrderId := some pix.id
        identifier := some pix.identifier
        pixQrCodePayload := pix.qrCodePayload <|> c.pixQrCodePayload
        pixQrCodeLocation := pix.qrCodeLocation <|> c.pixQrCodeLocation
        pixQrCodeBase64 := pix.qrCodeBase64 <|> c.pixQrCodeBase64 }) s.collections }

end CollectionStores

section Calls
variable (env : ServiceEnv) (s : CollectionStores)

/-- `POST /v1/collections`, from the request to the collection that the API hears of. -/
def postCollection (request : CreateCollectionOrderRequest) (p : Posting) :
    CollectionStores × Except ApiError PixService.CollectionOrder :=
  match brlToCents env.py request.amount with
  | .error _ => (s, .error (.error "Request failed with status code 422"))
  | .ok amountCents =>
    let issued := if p.qrAnswer.made then s.issue p.identifier request.receivableId else s
    match p.qrAnswer.result with
    | .error _ => (issued, .error (.error "Request failed with status code 502"))
    | .ok qr =>
      match createCollection env.py env.settings p.fresh s.service request (.ok qr) with
      | .error _ => (issued, .error (.error "Request failed with status code 500"))
      | .ok tables =>
        (if p.commits then { issued with service := tables } else issued,
          match p.ending with
          | .done => .ok (PixService.collectionOrder env.py env.settings p.fresh request amountCents qr)
          | .threw _ message => .error (.error message))

/-- The update of a row with what the Pix service answered. -/
def storeCollection (id : String) (pix : PixService.CollectionOrder) (update : Ending) :
    CollectionStores × Except ApiError CollectionRow :=
  if s.takesColumns id pix.id pix.identifier = false then
    (s, .error (.error "Unique constraint failed on the fields"))
  else
    let updated := if update.executed then s.updateRow id pix else s
    match update with
    | .threw _ message => (updated, .error (.error message))
    | .done => (updated, orThrow (updated.findRow id) (.error "Record to update not found"))

/-- What both calls do with a row: they ask for its collection, and write the answer on it. -/
def registerCollection (id : String) (request : CreateCollectionOrderRequest) (course : CollectionCourse) :
    CollectionStores × Except ApiError CollectionRow :=
  match postCollection env s request course.posting with
  | (s, .error e) => (s, .error e)
  | (s, .ok pix) => storeCollection s id pix course.update

def newCollection (id : String) (dto : CollectionOrder) : CollectionRow where
  id := id
  receivableId := dto.receivableId
  identifier := none
  status := "pending_payment"
  txHash := none
  endToEndId := none
  paidAt := none
  amount := dto.amount
  dueDate := dto.dueDate

def collectionCreatedLog (id : String) (dto : CollectionOrder) : AuditLog where
  event := "pix.collection.created"
  entityId := id
  entityType := "receivable_collection"
  userId := dto.pmeUserId
  metadata := .object [("amount", .number dto.amount), ("receivableId", .string dto.receivableId)]

def collectionRequest (dto : CollectionOrder) : CreateCollectionOrderRequest where
  receivableId := dto.receivableId
  pmeUserId := dto.pmeUserId
  debtorName := dto.debtorName
  debtorDocument := dto.debtorDocument
  amount := dto.amount
  dueDate := dto.dueDate
  paymentDeadline := dto.dueDate
  metadata := none

def createCollectionOrder (dto : CollectionOrder) (course : CollectionCourse) :
    CollectionStores × Except ApiError CollectionRow :=
  if (s.findRow course.id).isSome then
    (s, .error (.error "Unique constraint failed on the fields: (id)"))
  else
    let created :=
      if course.create.executed then { s with collections := s.collections ++ [newCollection course.id dto] } else s
    match course.create with
    | .threw _ message => (created, .error (.error message))
    | .done =>
      let logged :=
        if course.auditLog.executed then
          { created with auditLogs := created.auditLogs ++ [collectionCreatedLog course.id dto] }
        else created
      match course.auditLog with
      | .threw _ message => (logged, .error (.error message))
      | .done => registerCollection env logged course.id (collectionRequest dto) course

/-- What a retry asks for: the row's own amount and date, and the debtor of the receivable. -/
def retriedOrder (collection : CollectionRow) (receivable : Receivable) (pmeUserId : String) : CollectionOrder where
  receivableId := collection.receivableId
  pmeUserId := pmeUserId
  debtorName := receivable.debtorName
  debtorDocument := receivable.debtorDocument
  amount := collection.amount
  dueDate := collection.dueDate

/-- The row of a retry, with the debtor. -/
structure RetriedCollection extends CollectionRow where
  debtorName : String
  debtorDocument : String

/-- `findReceivable` is what the lookup of a receivable finds at the time of the call. -/
def retryCollectionOrder (collectionId pmeUserId : String) (findReceivable : String → Option Receivable)
    (course : CollectionCourse) : CollectionStores × Except ApiError RetriedCollection :=
  match s.findRow collectionId with
  | none => (s, .error (.notFound "Cobrança não encontrada"))
  | some collection =>
    match findReceivable collection.receivableId with
    | none => (s, .error (.notFound "Recebível associado não encontrado"))
    | some receivable =>
      let (stored, result) := registerCollection env s collection.id
        (collectionRequest (retriedOrder collection receivable pmeUserId)) course
      (stored, result.map fun row =>
        { row with debtorName := receivable.debtorName, debtorDocument := receivable.debtorDocument })

/-- `cancel_collection` of the Pix service: the provider cancels the QR code, and the session is committed then. -/
def cancelCollection (collectionId : String) (cancelQr : Ending) (commits : Bool) : CollectionStores :=
  match cancellableCollection s.service collectionId with
  | none => s
  | some collection =>
    let canceled := if cancelQr.executed then s.cancelQr collection.identifier else s
    match cancelQr with
    | .threw .. => canceled
    | .done =>
      match commits, s.service.commitCollection (cancelCollectionChange collection) with
      | true, .ok tables => { canceled with service := tables }
      | _, _ => canceled

/-! ### Histories -/

inductive CollectionOp where
  | createCollectionOrder (dto : CollectionOrder) (course : CollectionCourse)
  | retryCollectionOrder (collectionId pmeUserId : String) (findReceivable : String → Option Receivable)
      (course : CollectionCourse)
  | cancelCollection (collectionId : String) (cancelQr : Ending) (commits : Bool)

/-- No operation is refused: what fails has done what it did before. -/
def collectionStep (op : CollectionOp) : Except Empty CollectionStores :=
  .ok <| match op with
    | .createCollectionOrder dto course => (createCollectionOrder env s dto course).1
    | .retryCollectionOrder collectionId pmeUserId findReceivable course =>
      (retryCollectionOrder env s collectionId pmeUserId findReceivable course).1
    | .cancelCollection collectionId cancelQr commits => cancelCollection s collectionId cancelQr commits

end Calls

/-! ### Payments -/

/-- A payment of a QR code: the provider's event of it, and what is drawn while it is handled. -/
structure QrPayment where
  eventId : String
  eventType : String
  endToEndId : String
  fresh : Fresh
  paid : eventType = "qrcode.paid" ∨ eventType = "pix.in.completed"
  known : fitsText eventId = true
  fits : fitsColumn 255 endToEndId = true

def QrPayment.webhook (payment : QrPayment) (identifier : String) : CorpXWebhook :=
  let data : Json := .object [("identifier", .string identifier), ("endToEndId", .string payment.endToEndId)]
  { eventId := payment.eventId
    eventType := payment.eventType
    data
    rawPayload := .object [("eventId", .string payment.eventId), ("eventType", .string payment.eventType), ("data", data)] }

/-- The fields of a body that the handling of a collection's callback reads. A time of the body is a number. -/
def PixCollectionCallback.ofBody (isoText : Rat → String) (body : Json) : Option PixCollectionCallback :=
  match body.field? "eventId", body.field? "collectionOrderId", body.field? "receivableId", body.field? "identifier",
    body.field? "status", body.field? "amount" with
  | some (.string eventId), some (.string collectionOrderId), some (.string receivableId), some (.string identifier),
    some (.string status), some (.number amount) =>
    some
      { eventId, collectionOrderId, receivableId, identifier, status, amount
        endToEndId := match body.field? "endToEndId" with | some (.string endToEndId) => some endToEndId | _ => none
        paidAt := match body.field? "paidAt" with | some (.number t) => some (isoText t) | _ => none }
  | _, _, _, _, _, _ => none

/-- The callback that the API gets of a payment: the webhook is handled, and what it adds to the outbox is sent. -/
def paymentCallback (env : ServiceEnv) (isoText : Rat → String) (tables : Tables) (identifier : String)
    (payment : QrPayment) : Option PixCollectionCallback := do
  let (_, tables') ← (handleCorpxWebhook env payment.fresh tables (payment.webhook identifier)).toOption
  let callback ← (tables'.db.outboxCallbacks.drop tables.db.outboxCallbacks.length).head?
  let body ← (ensureCamelCaseKeys env.text callback.payloadJson).toOption
  PixCollectionCallback.ofBody isoText body

end CredBridge.Api
