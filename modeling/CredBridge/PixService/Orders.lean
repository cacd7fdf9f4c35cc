import CredBridge.Lib.Machine
import CredBridge.PixService.Models

/-! # The orders service

Deposits and withdrawals are created at the provider and then written; an order's status changes when it is
canceled, when an event of the provider is applied to it, and when a reconciliation asks the provider. What
the provider answers, and the values drawn at random or from the clock, are inputs. -/

namespace CredBridge.PixService
open Result

structure Settings where
  corpxAccountId : String
  corpxTenantId : String
  corpxReceiverPixKey : String
  credbridgeApiUrl : String
  credbridgePixWebhookPath : String

structure CreateDepositOrderRequest where
  externalId : String
  ownerId : String
  ownerRole : OwnerRole
  amount : Rat
  description : Option String
  expiresInSeconds : Int
  metadata : Option Json

structure CreateWithdrawalOrderRequest where
  externalId : String
  ownerId : String
  ownerRole : OwnerRole
  amount : Rat
  pixKey : String
  pixKeyType : String
  description : Option String
  metadata : Option Json

/-! ### What the provider answers -/

structure CreateQrCodeResult where
  txid : String
  payload : String
  location : String

structure QrCodeStatus where
  status : String
  endToEndId : Option String
  paidAmount : Option Rat
  transactionId : Option String

structure PixOutResult where
  paymentId : String
  status : String

structure PaymentStatus where
  status : String
  endToEndId : Option String
  amount : Option Rat

/-- What the service uses of its language and libraries: how it reads a value as a float, rounds a number to two
    digits and shows it, how it changes the case of a text, and the picture it makes of a QR code. -/
structure Python where
  float : Json → Except PyError Unit
  round : Rat → Rat
  str : Rat → String
  lower : String → String
  upper : String → String
  generateQrBase64 : String → Option String

/-- What a call draws, with the time it reads and the time at which its transaction starts, which is what `func.now()`
    tells in it. -/
structure Fresh where
  id : String
  nanoid : String
  callbackEventId : String
  now : DateTime
  transactionStart : DateTime

def depositIdentifierPrefix : String := "cbd"
def withdrawalIdentifierPrefix : String := "cbw"

def generateIdentifier (start : String) (nanoid : String) : String := start ++ "_" ++ nanoid

/-- Half-up rounding to whole cents; amounts below zero are refused. -/
def brlToCents (py : Python) (amount : Rat) : Except PyError Int := do
  let cents := if amount < 0 then -(-amount * 100 + 1 / 2).floor else (amount * 100 + 1 / 2).floor
  throwIf (cents < 0) (.valueError ("Valor BRL não pode ser negativo: " ++ py.str amount))
  pure cents

/-! ### Callbacks -/

def optional (s : Option String) : Json := (s.map Json.string).getD .null

def isoformat (t : Option DateTime) : Json := (t.map fun s => Json.number s).getD .null

def buildCallbackPayload (order : PixOrder) (eventId : String) : Json :=
  .object [("eventId", .string eventId), ("pixOrderId", .string order.id), ("externalId", .string order.externalId),
    ("identifier", .string order.identifier), ("type", .string order.type.value),
    ("status", .string order.status.value), ("amount", .number order.amount), ("txid", optional order.corpxTxid),
    ("paymentId", optional order.corpxPaymentId), ("transactionId", optional order.corpxTransactionId),
    ("endToEndId", optional order.endToEndId), ("confirmedAt", isoformat order.confirmedAt),
    ("failedAt", isoformat order.failedAt), ("failureReason", optional order.failureReason),
    ("metadata", order.metadataJson.getD .null)]

def enqueueCallback (settings : Settings) (fresh : Fresh) (db : Db) (order : PixOrder) : Except PyError Db :=
  db.insertCallback
    { eventId := fresh.callbackEventId
      pixOrderId := some order.id
      targetUrl := settings.credbridgeApiUrl ++ settings.credbridgePixWebhookPath
      payloadJson := buildCallbackPayload order fresh.callbackEventId
      status := .pending
      attemptCount := 0
      nextAttemptAt := some fresh.now
      lastError := none
      createdAt := fresh.transactionStart }

/-! ### Creating orders -/

section Create
variable (py : Python) (settings : Settings) (fresh : Fresh) (db : Db)

def depositOrder (request : CreateDepositOrderRequest) (amountCents : Int) (qr : CreateQrCodeResult) : PixOrder where
  id := fresh.id
  externalId := request.externalId
  identifier := generateIdentifier depositIdentifierPrefix fresh.nanoid
  type := .deposit
  ownerId := request.ownerId
  ownerRole := request.ownerRole
  amountCents := amountCents
  status := .pendingPayment
  corpxAccountId := some settings.corpxAccountId
  corpxTenantId := some settings.corpxTenantId
  corpxPixKey := some settings.corpxReceiverPixKey
  corpxTxid := some qr.txid
  description := request.description
  metadataJson := request.metadata
  qrCodePayload := some qr.payload
  qrCodeLocation := some qr.location
  qrCodeBase64 := if qr.payload = "" then none else py.generateQrBase64 qr.payload
  expiresAt := some (fresh.now + request.expiresInSeconds)

def withdrawalOrder (request : CreateWithdrawalOrderRequest) (amountCents : Int) (out : PixOutResult) : PixOrder where
  id := fresh.id
  externalId := request.externalId
  identifier := generateIdentifier withdrawalIdentifierPrefix fresh.nanoid
  type := .withdrawal
  ownerId := request.ownerId
  ownerRole := request.ownerRole
  amountCents := amountCents
  status := .processing
  corpxAccountId := some settings.corpxAccountId
  corpxTenantId := some settings.corpxTenantId
  corpxPaymentId := some out.paymentId
  pixKey := some request.pixKey
  pixKeyType := some request.pixKeyType
  description := request.description
  metadataJson := request.metadata

def persistOrder (order : PixOrder) (eventType : String) (payload : Json) : Except PyError Db := do
  let db ← db.insertOrder order
  db.insertEvent
    { eventId := "internal-created-" ++ order.id, pixOrderId := order.id, source := "internal", eventType,
      payloadJson := some payload }

def persistDeposit (request : CreateDepositOrderRequest) (amountCents : Int) (qr : CreateQrCodeResult) :
    Except PyError Db :=
  let order := depositOrder py settings fresh request amountCents qr
  persistOrder db order "deposit.qr_created"
    (.object [("identifier", .string order.identifier), ("txid", .string qr.txid), ("amount", .number request.amount)])

def persistWithdrawal (request : CreateWithdrawalOrderRequest) (amountCents : Int) (out : PixOutResult) :
    Except PyError Db :=
  let order := withdrawalOrder settings fresh request amountCents out
  persistOrder db order "withdrawal.pix_out_created"
    (.object [("identifier", .string order.identifier), ("payment_id", .string out.paymentId),
      ("status", .string out.status), ("amount", .number request.amount)])

def createDeposit (request : CreateDepositOrderRequest) (createDynamicQr : Except PyError CreateQrCodeResult) :
    Except PyError Db :=
  match findOrderByExternalId db request.externalId with
  | some _ => pure db
  | none => do
    let amountCents ← brlToCents py request.amount
    let qr ← createDynamicQr
    persistDeposit py settings fresh db request amountCents qr

/-- The provider's refusal of a key, as the service raises it again; other exceptions pass. -/
def checkDict (dictLookup : Except PyError Unit) : Except PyError Unit :=
  match dictLookup with
  | .error (.valueError message) => .error (.valueError ("Chave Pix inválida ou não encontrada: " ++ message))
  | result => result

def createWithdrawal (request : CreateWithdrawalOrderRequest) (dictLookup : Except PyError Unit)
    (createPixOutAsync : Except PyError PixOutResult) : Except PyError Db :=
  match findOrderByExternalId db request.externalId with
  | some _ => pure db
  | none => do
    let amountCents ← brlToCents py request.amount
    checkDict dictLookup
    let out ← createPixOutAsync
    persistWithdrawal settings fresh db request amountCents out

end Create

section Created
variable {py : Python} {settings : Settings} {fresh : Fresh} {db db' : Db}

/-- The row and its first event are added together. -/
theorem persistOrder_inv {order : PixOrder} {eventType : String} {payload : Json}
    (h : persistOrder db order eventType payload = .ok db') :
    findOrderById db order.id = none ∧ ∃ event, Table.find PixEvent.eventId event.eventId db.pixEvents = none ∧
      db' = { db with pixOrders := db.pixOrders ++ [order], pixEvents := db.pixEvents ++ [event] } := by
  obtain ⟨db₁, horder, h⟩ := bind_eq_ok.mp h
  obtain ⟨hnew, -, -, rfl⟩ := Db.insertOrder_inv horder
  obtain ⟨hevent, rfl⟩ := Db.insertEvent_inv h
  exact ⟨hnew, _, hevent, rfl⟩

theorem createDeposit_inv {request : CreateDepositOrderRequest} {qr : Except PyError CreateQrCodeResult}
    (h : createDeposit py settings fresh db request qr = .ok db') :
    db' = db ∨ ∃ amountCents result, persistDeposit py settings fresh db request amountCents result = .ok db' := by
  unfold createDeposit at h
  split at h
  · exact .inl (pure_eq_ok.mp h).symm
  · obtain ⟨amountCents, -, h⟩ := bind_eq_ok.mp h
    obtain ⟨result, -, h⟩ := bind_eq_ok.mp h
    exact .inr ⟨amountCents, result, h⟩

theorem createWithdrawal_inv {request : CreateWithdrawalOrderRequest} {dict : Except PyError Unit}
    {out : Except PyError PixOutResult} (h : createWithdrawal py settings fresh db request dict out = .ok db') :
    db' = db ∨ ∃ amountCents result, persistWithdrawal settings fresh db request amountCents result = .ok db' := by
  unfold createWithdrawal at h
  split at h
  · exact .inl (pure_eq_ok.mp h).symm
  · obtain ⟨amountCents, -, h⟩ := bind_eq_ok.mp h
    obtain ⟨_, -, h⟩ := bind_eq_ok.mp h
    obtain ⟨result, -, h⟩ := bind_eq_ok.mp h
    exact .inr ⟨amountCents, result, h⟩

end Created

/-! ### Changing the status of an order -/

section Change
variable (py : Python) (settings : Settings) (fresh : Fresh) (db : Db)

def cancelOrder (pixOrderId : String) (cancelQr : Except PyError Unit) : Except PyError Db := do
  let order ← orThrow (findOrderById db pixOrderId) (.valueError ("Ordem Pix não encontrada: " ++ pixOrderId))
  throwIf (isTerminal order.status = true)
    (.valueError ("Ordem em status terminal '" ++ order.status.value ++ "' não pode ser cancelada"))
  if order.type = .deposit then cancelQr else pure ()
  let db ← db.updateOrder { order with status := .canceled }
  db.insertEvent
    { eventId := "internal-cancel-" ++ pixOrderId, pixOrderId, source := "internal", eventType := "order.canceled",
      payloadJson := some (.object [("canceled_by", .string "credbridge_api")]) }

def firstTruthy (payload : Json) (name other : String) : Option Json :=
  match (payload.field? name).filter Json.truthy with
  | some value => some value
  | none => (payload.field? other).filter Json.truthy

/-- A value for a text column: the database takes a text only, without the character zero. -/
def columnText : Json → Except PyError String
  | .string s => do
    throwIf (fitsText s = false) .databaseError
    pure s
  | _ => .error .databaseError

def readEndToEndId (order : PixOrder) (payload : Json) : Except PyError (Option String) :=
  match firstTruthy payload "endToEndId" "end_to_end_id" with
  | some value => some <$> columnText value
  | none => pure order.endToEndId

/-- The paid amount is only compared and logged, but a value that is no number raises. -/
def comparePaidAmount (payload : Json) : Except PyError Unit :=
  match firstTruthy payload "paidAmount" "amount" with
  | some paidAmount => py.float paidAmount
  | none => pure ()

def readFailureReason (eventType : String) (payload : Json) : Except PyError String :=
  match firstTruthy payload "reason" "rejectReason" with
  | some value => columnText value
  | none => pure eventType

def recordConfirmed (order : PixOrder) (payload : Json) : Except PyError PixOrder := do
  let endToEndId ← readEndToEndId order payload
  comparePaidAmount py payload
  pure { order with confirmedAt := some fresh.now, endToEndId }

def recordFailed (order : PixOrder) (eventType : String) (payload : Json) : Except PyError PixOrder := do
  let failureReason ← readFailureReason eventType payload
  pure { order with failedAt := some fresh.now, failureReason := some failureReason }

def recordOutcome (order : PixOrder) (newStatus : PixOrderStatus) (eventType : String) (payload : Json) :
    Except PyError PixOrder :=
  match newStatus with
  | .confirmed => recordConfirmed py fresh order payload
  | .failed => recordFailed fresh order eventType payload
  | .timeout => recordFailed fresh order eventType payload
  | _ => pure order

/-- `apply_corpx_event` on a loaded order: the order with its new status, or no change. -/
def applyCorpxEvent (order : PixOrder) (eventType : String) (payload : Json) :
    Except PyError (PixOrder × Option PixOrderStatus) :=
  match corpxEventToStatus eventType with
  | none => pure (order, none)
  | some newStatus =>
    if isTransitionAllowed order.status newStatus = false then
      pure (order, none)
    else do
      let order ← recordOutcome py fresh { order with status := newStatus } newStatus eventType payload
      pure (order, some newStatus)

def qrStatusToEvent (status : String) : Option String :=
  if status = "paid" then some "qrcode.paid"
  else if status = "expired" then some "qrcode.expired"
  else if status = "cancelled" ∨ status = "canceled" then some "qrcode.cancelled"
  else none

def paymentStatusToEvent (status : String) : Option String :=
  if status = "APPROVED" ∨ status = "COMPLETED" then some "pix.out.completed"
  else if status = "REJECTED" ∨ status = "FAILED" then some "pix.out.failed"
  else none

/-- Apply an event that the reconciliation found, and enqueue a callback if the status changed. -/
def reconcileWith (order : PixOrder) (eventType : Option String) (payload : Json) : Except PyError Db :=
  match eventType with
  | none => pure db
  | some eventType => do
    let (order, newStatus) ← applyCorpxEvent py fresh order eventType payload
    match newStatus with
    | none => pure db
    | some _ => do
      let db ← db.updateOrder order
      enqueueCallback settings fresh db order

def optionalNumber (n : Option Rat) : Json := (n.map Json.number).getD .null

/-- `_reconcile_deposit`: a lookup that fails changes nothing. -/
def reconcileDeposit (order : PixOrder) (lookupQr : Except PyError QrCodeStatus) : Except PyError Db :=
  match lookupQr with
  | .error _ => pure db
  | .ok qrStatus =>
    reconcileWith py settings fresh db order (qrStatusToEvent (py.lower qrStatus.status))
      (.object [("endToEndId", optional qrStatus.endToEndId), ("paidAmount", optionalNumber qrStatus.paidAmount),
        ("transactionId", optional qrStatus.transactionId), ("source", .string "reconciliation_lookup")])

def reconcileWithdrawal (order : PixOrder) (lookupPayment : Except PyError PaymentStatus) : Except PyError Db :=
  match lookupPayment with
  | .error _ => pure db
  | .ok paymentStatus =>
    reconcileWith py settings fresh db order (paymentStatusToEvent (py.upper paymentStatus.status))
      (.object [("endToEndId", optional paymentStatus.endToEndId), ("amount", optionalNumber paymentStatus.amount),
        ("source", .string "reconciliation_lookup")])

def reconcileOrder (pixOrderId : String) (lookupQr : Except PyError QrCodeStatus)
    (lookupPayment : Except PyError PaymentStatus) : Except PyError Db := do
  let order ← orThrow (findOrderById db pixOrderId) (.valueError ("Ordem não encontrada: " ++ pixOrderId))
  if isTerminal order.status = true then
    pure db
  else
    match order.type with
    | .deposit => reconcileDeposit py settings fresh db order lookupQr
    | .withdrawal => reconcileWithdrawal py settings fresh db order lookupPayment

end Change

/-! ### Runs of the service -/

inductive Call where
  | createDeposit (request : CreateDepositOrderRequest) (createDynamicQr : Except PyError CreateQrCodeResult)
  | createWithdrawal (request : CreateWithdrawalOrderRequest) (dictLookup : Except PyError Unit)
      (createPixOutAsync : Except PyError PixOutResult)
  | cancelOrder (pixOrderId : String) (cancelQr : Except PyError Unit)
  | applyCorpxEvent (pixOrderId : String) (eventType : String) (payload : Json)
  | reconcileOrder (pixOrderId : String) (lookupQr : Except PyError QrCodeStatus)
      (lookupPayment : Except PyError PaymentStatus)

/-- One call, with its changes committed if it raised nothing. -/
def step (py : Python) (settings : Settings) (db : Db) (call : Fresh × Call) : Except PyError Db :=
  match call with
  | (fresh, .createDeposit request qr) => createDeposit py settings fresh db request qr
  | (fresh, .createWithdrawal request dict out) => createWithdrawal py settings fresh db request dict out
  | (_, .cancelOrder pixOrderId cancelQr) => cancelOrder db pixOrderId cancelQr
  | (fresh, .applyCorpxEvent pixOrderId eventType payload) => do
    let order ← orThrow (findOrderById db pixOrderId) (.valueError pixOrderId)
    let (order, _) ← applyCorpxEvent py fresh order eventType payload
    db.updateOrder order
  | (fresh, .reconcileOrder pixOrderId lookupQr lookupPayment) =>
    reconcileOrder py settings fresh db pixOrderId lookupQr lookupPayment

/-! ### A small setting -/

def plainPython : Python := ⟨fun _ => .error .typeError, id, fun _ => "", id, id, fun _ => none⟩

def testSettings : Settings := ⟨"account", "tenant", "key", "http://api", "/v1/pix/webhooks/orders"⟩

def depositRequest : CreateDepositOrderRequest := ⟨"deposit", "owner", .pme, 100, none, 3600, none⟩

def withdrawalRequest : CreateWithdrawalOrderRequest :=
  ⟨"withdrawal", "owner", .pme, 50, "pme@example.com", "EMAIL", none, none⟩

end CredBridge.PixService
