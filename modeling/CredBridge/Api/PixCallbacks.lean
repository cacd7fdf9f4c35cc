import CredBridge.Api.Assignment
import CredBridge.Api.Transactions
import CredBridge.PixService.Status

/-! # Callbacks of the Pix service, statement by statement

The handlers of order and collection callbacks, the settlement of a receivable that a paid collection starts, and the
withdrawal that sends a Pix after its burn. Every statement on the database, transaction on the chain and request to
the Pix service can throw, with what it asked for done or not, and a call can be lost between any two of them. A
callback is answered with a 2xx when its handler returns. -/

namespace CredBridge.Api
open Concurrent Contracts Result Submission

deriving instance DecidableEq for PixWebhookDto

/-- The fields of a body that the handling of an order's callback reads. -/
def PixWebhookDto.ofBody (body : Json) : Option PixWebhookDto :=
  match body.field? "eventId", body.field? "externalId", body.field? "type", body.field? "status", body.field? "amount" with
  | some (.string eventId), some (.string externalId), some (.string type), some (.string status),
    some (.number amount) => some { eventId, externalId, type, status, amount }
  | _, _, _, _, _ => none

structure PixOrderCallback extends PixWebhookDto where
  pixOrderId : String
  identifier : String
  paymentId : Option String
  transactionId : Option String
  endToEndId : Option String
  confirmedAt : Option String
  failureReason : Option String
deriving DecidableEq

structure PixCollectionCallback where
  eventId : String
  collectionOrderId : String
  receivableId : String
  identifier : String
  status : String
  amount : Rat
  endToEndId : Option String
  paidAt : Option String
deriving DecidableEq

inductive Callback where
  | order (dto : PixOrderCallback)
  | collection (dto : PixCollectionCallback)
deriving DecidableEq

structure PixWebhookEvent where
  eventId : String
  pixOrderId : String
  externalId : String
  identifier : String
  type : String
  status : String
  amount : Rat
deriving DecidableEq

def Callback.event : Callback → PixWebhookEvent
  | .order dto => ⟨dto.eventId, dto.pixOrderId, dto.externalId, dto.identifier, dto.type, dto.status, dto.amount⟩
  | .collection dto =>
    ⟨dto.eventId, dto.collectionOrderId, dto.receivableId, dto.identifier, "COLLECTION", dto.status, dto.amount⟩

def Callback.eventId (callback : Callback) : String := callback.event.eventId

/-! ### The tables -/

structure PixTransaction extends Transaction where
  pixOrderId : Option String := none
  pixEndToEndId : Option String := none
  pixConfirmedAt : Option String := none
  pixFailureReason : Option String := none
  pixPaymentId : Option String := none
  pixTransactionId : Option String := none

structure ReceivableCollection where
  id : String
  receivableId : String
  identifier : Option String
  status : String
  txHash : Option String
  endToEndId : Option String
  paidAt : Option String

structure ReceivableRow extends Receivable where
  txHash : Option String := none
  paymentTxHash : Option String := none

structure SettlementRow where
  receivableId : String
  amount : Rat
  method : String
  status : String
  txHash : String

structure AuditLog where
  event : String
  entityId : String
  entityType : String
  userId : String
  txHash : Option String := none
  metadata : Json

/-- A withdrawal order at the Pix service. -/
structure WithdrawalOrder where
  request : PixWithdrawal
  status : PixService.PixOrderStatus

/-- What a handler did for an event. -/
inductive Act where
  | updatePixColumns
  | failDeposit
  | mint
  | approve
  | auditConfirmed
  | auditMintFailed
  | updateStatus
  | auditStatus
  | markPaid
  | auditPaid
  | settleOnChain
  | markSettled
  | createSettlement
  | recordTxHash
deriving DecidableEq, Repr

/-- A burn that the chain confirmed to `submitWithdrawal`, with what the signed transaction burned. -/
structure Burn where
  userId : String
  txHash : String
  amount : Int
deriving DecidableEq

def LedgerTx.burnOf (tx : LedgerTx) (userId : String) : Option Burn :=
  match tx.effect with
  | .burn _ amount => some ⟨userId, tx.hash, amount⟩
  | .mint .. | .other => none

/-- The tables and the chain; the orders that the Pix service took; and beside them what was answered with a 2xx, what
    was done for each event, and which burns were confirmed. -/
structure PixState (σ : Type) where
  chain : σ
  webhookEvents : List PixWebhookEvent := []
  transactions : List PixTransaction := []
  receivableCollections : List ReceivableCollection := []
  receivables : List ReceivableRow := []
  settlements : List SettlementRow := []
  auditLogs : List AuditLog := []
  withdrawalOrders : List WithdrawalOrder := []
  acknowledged : List Callback := []
  journal : List (String × Act) := []
  burns : List Burn := []

structure PixEnv (σ : Type) extends StellarEnv where
  /-- The pool contract, the RPC server and the platform's key are set. -/
  poolContractConfigured : Bool
  platformAddress : Address
  address : String → Address
  users : String → Option User
  /-- The first user of the table. -/
  fallbackUser : Option String
  execute : (time : Nat) → LedgerCalls → σ → Except Trap σ

namespace PixState
variable {σ : Type} (s : PixState σ)

def recorded (eventId : String) : Bool := (Table.find PixWebhookEvent.eventId eventId s.webhookEvents).isSome

def findTransaction (id : String) : Option PixTransaction := Table.find (·.id) id s.transactions

def findReceivable (id : String) : Option ReceivableRow := Table.find (·.id) id s.receivables

def findCollection (identifier : String) : Option ReceivableCollection :=
  Table.find (·.identifier) (some identifier) s.receivableCollections

def did (eventId : String) (act : Act) : PixState σ := { s with journal := s.journal ++ [(eventId, act)] }

def record (callback : Callback) : PixState σ := { s with webhookEvents := s.webhookEvents ++ [callback.event] }

def acknowledge (callback : Callback) : PixState σ := { s with acknowledged := s.acknowledged ++ [callback] }

def updateTransaction (id : String) (change : PixTransaction → PixTransaction) : PixState σ :=
  { s with transactions := Table.modify (·.id) id change s.transactions }

def updateCollection (id : String) (change : ReceivableCollection → ReceivableCollection) : PixState σ :=
  { s with receivableCollections := Table.modify (·.id) id change s.receivableCollections }

def updateReceivable (id : String) (change : ReceivableRow → ReceivableRow) : PixState σ :=
  { s with receivables := Table.modify (·.id) id change s.receivables }

def audit (log : AuditLog) : PixState σ := { s with auditLogs := s.auditLogs ++ [log] }

def settle (row : SettlementRow) : PixState σ := { s with settlements := s.settlements ++ [row] }

/-- The Pix service has one order for an `externalId`. -/
def orderWithdrawal (request : PixWithdrawal) : PixState σ :=
  if s.withdrawalOrders.any (·.request.externalId = request.externalId) then s
  else { s with withdrawalOrders := s.withdrawalOrders ++ [⟨request, .processing⟩] }

def moveOrder (externalId : String) (status : PixService.PixOrderStatus) : PixState σ :=
  { s with withdrawalOrders := Table.modify (·.request.externalId) externalId ({ · with status }) s.withdrawalOrders }

end PixState

def PixTransaction.setStatus (t : PixTransaction) (u : TransactionUpdate) : PixTransaction :=
  { t with toTransaction := t.toTransaction.update u }

/-! ### Calls -/

/-- How an order ends, deposits that are confirmed apart. -/
inductive Outcome where
  | completed
  | failed
  | expired
deriving DecidableEq, Repr

inductive PixRequest where
  | callback (callback : Callback)
  | submitWithdrawal (userId : String) (dto : SubmitWithdrawalDto)
  /-- An order moves at the Pix service. -/
  | moveOrder (externalId : String) (status : PixService.PixOrderStatus)

/-- What a call waits for: a statement, the chain, or the Pix service. -/
inductive PixCall where
  | recordEvent (callback : Callback)
  | loadTransaction (dto : PixOrderCallback)
  | updatePixColumns (t : PixTransaction) (dto : PixOrderCallback)
  | failDeposit (t : PixTransaction) (dto : PixOrderCallback)
  | mint (t : PixTransaction) (dto : PixOrderCallback) (effect : Effect)
  | approve (t : PixTransaction) (dto : PixOrderCallback) (txHash : String)
  | auditConfirmed (t : PixTransaction) (dto : PixOrderCallback) (txHash : String)
  | auditMintFailed (t : PixTransaction) (dto : PixOrderCallback) (error : String)
  | updateStatus (t : PixTransaction) (dto : PixOrderCallback) (outcome : Outcome)
  | auditStatus (t : PixTransaction) (dto : PixOrderCallback) (outcome : Outcome)
  | findCollection (dto : PixCollectionCallback)
  | markPaid (dto : PixCollectionCallback) (collection : ReceivableCollection)
  | findReceivable (dto : PixCollectionCallback) (collection : Option ReceivableCollection)
  | auditPaid (dto : PixCollectionCallback) (collection : Option ReceivableCollection) (logUserId : String)
  | findSettled (dto : PixCollectionCallback) (collection : Option ReceivableCollection)
  | settleOnChain (dto : PixCollectionCallback) (collection : Option ReceivableCollection) (receivable : ReceivableRow)
      (calls : LedgerCalls)
  | markSettled (dto : PixCollectionCallback) (collection : Option ReceivableCollection) (receivable : ReceivableRow)
      (txHash : String)
  | createSettlement (dto : PixCollectionCallback) (collection : Option ReceivableCollection)
      (receivable : ReceivableRow) (txHash : String)
  | recordTxHash (dto : PixCollectionCallback) (collection : ReceivableCollection) (txHash : String)
  | burn (userId : String) (dto : SubmitWithdrawalDto) (tx : LedgerTx)
  | createTransaction (dto : CreatePixWithdrawalDto)
  | auditCreated (t : PixTransaction) (dto : CreatePixWithdrawalDto)
  | orderWithdrawal (t : PixTransaction) (dto : CreatePixWithdrawalDto)
  | setPixOrder (t : PixTransaction) (pixOrderId : String)

inductive PixReply where
  /-- Done; the value is the identifier of a new row or order, or the time. -/
  | ok (value : String)
  /-- An exception, with the value of what was done all the same. -/
  | threw (executed : Option String) (message : String)
  /-- What became of a transaction, when it was included, and what the call hears of it. -/
  | submitted (fate : Fate) (time : Nat) (txHash message : String)

inductive Flow where
  | next (call : PixCall)
  | finished
  | raised

/-- The callback that a call handles. -/
def PixCall.callback? : PixCall → Option Callback
  | .recordEvent callback => some callback
  | .loadTransaction dto | .updatePixColumns _ dto | .failDeposit _ dto | .mint _ dto _ | .approve _ dto _
  | .auditConfirmed _ dto _ | .auditMintFailed _ dto _ | .updateStatus _ dto _ | .auditStatus _ dto _ =>
    some (.order dto)
  | .findCollection dto | .markPaid dto _ | .findReceivable dto _ | .auditPaid dto _ _ | .findSettled dto _
  | .settleOnChain dto _ _ _ | .markSettled dto _ _ _ | .createSettlement dto _ _ _ | .recordTxHash dto _ _ =>
    some (.collection dto)
  | .burn .. | .createTransaction _ | .auditCreated .. | .orderWithdrawal .. | .setPixOrder .. => none

def textOrNull (text : Option String) : Json := (text.map Json.string).getD .null

def orderAudit (event : String) (t : PixTransaction) (metadata : List (String × Json)) (txHash : Option String) :
    AuditLog :=
  { event, entityId := t.id, entityType := "transaction", userId := t.userId, txHash, metadata := .object metadata }

/-- `dto.field ?? undefined`: what is not there leaves the column as it is. -/
def pixColumns (dto : PixOrderCallback) (t : PixTransaction) : PixTransaction :=
  { t with
    pixEndToEndId := dto.endToEndId <|> t.pixEndToEndId
    pixConfirmedAt := dto.confirmedAt.filter (· ≠ "") <|> t.pixConfirmedAt
    pixFailureReason := dto.failureReason <|> t.pixFailureReason
    pixPaymentId := dto.paymentId <|> t.pixPaymentId
    pixTransactionId := dto.transactionId <|> t.pixTransactionId }

def confirmedMetadata (dto : PixOrderCallback) : List (String × Json) :=
  [("pixOrderId", .string dto.pixOrderId), ("endToEndId", textOrNull dto.endToEndId), ("amount", .number dto.amount)]

def Outcome.change (dto : PixOrderCallback) (t : PixTransaction) : Outcome → PixTransaction
  | .completed => t.setStatus { status := .completed }
  | .failed =>
    { t.setStatus { status := .failed } with
      pixFailureReason := some (dto.failureReason.getD "Falha no processamento Pix") }
  | .expired => t.setStatus { status := .expired }

def Outcome.audit (dto : PixOrderCallback) (t : PixTransaction) : Outcome → AuditLog
  | .completed => orderAudit "pix.withdrawal.confirmed" t (confirmedMetadata dto) none
  | .failed =>
    orderAudit "pix.order.failed" t
      [("pixOrderId", .string dto.pixOrderId), ("failureReason", textOrNull dto.failureReason),
        ("type", .string dto.type)] none
  | .expired => orderAudit "pix.deposit.expired" t [("pixOrderId", .string dto.pixOrderId)] none

section Calls
variable {σ : Type} (env : PixEnv σ)

/-- What a statement writes. -/
def PixCall.execute (value : String) (s : PixState σ) : PixCall → PixState σ
  | .recordEvent callback => if s.recorded callback.eventId then s else s.record callback
  | .loadTransaction _ | .findCollection _ | .findReceivable .. | .findSettled .. => s
  | .mint .. | .settleOnChain .. | .burn .. => s
  | .updatePixColumns t dto => (s.updateTransaction t.id (pixColumns dto)).did dto.eventId .updatePixColumns
  | .failDeposit t dto =>
    (s.updateTransaction t.id fun t =>
      { t.setStatus { status := .failed } with
        pixFailureReason := some "Carteira Stellar não configurada para o investidor" }).did dto.eventId .failDeposit
  | .approve t dto txHash =>
    (s.updateTransaction t.id (·.setStatus { status := .approved, txHash := some txHash })).did dto.eventId .approve
  | .auditConfirmed t dto txHash =>
    (s.audit (orderAudit "pix.deposit.confirmed" t (confirmedMetadata dto) (some txHash))).did dto.eventId
      .auditConfirmed
  | .auditMintFailed t dto error =>
    (s.audit (orderAudit "pix.deposit.mint_failed" t [("error", .string error)] none)).did dto.eventId .auditMintFailed
  | .updateStatus t dto outcome => (s.updateTransaction t.id (outcome.change dto)).did dto.eventId .updateStatus
  | .auditStatus t dto outcome => (s.audit (outcome.audit dto t)).did dto.eventId .auditStatus
  | .markPaid dto collection =>
    (s.updateCollection collection.id fun c =>
      { c with
        status := "paid"
        paidAt := some ((dto.paidAt.filter (· ≠ "")).getD value)
        endToEndId := dto.endToEndId <|> c.endToEndId }).did dto.eventId .markPaid
  | .auditPaid dto _ logUserId =>
    (s.audit
      { event := "pix.collection.paid", entityId := dto.receivableId, entityType := "receivable", userId := logUserId,
        metadata := .object [("collectionOrderId", .string dto.collectionOrderId),
          ("endToEndId", textOrNull dto.endToEndId), ("amount", .number dto.amount)] }).did dto.eventId .auditPaid
  | .markSettled dto _ receivable txHash =>
    (s.updateReceivable receivable.id fun r =>
      { r with status := .other "settled", paymentTxHash := some txHash }).did dto.eventId .markSettled
  | .createSettlement dto _ receivable txHash =>
    (s.settle ⟨receivable.id, receivable.value, "pix", "completed", txHash⟩).did dto.eventId .createSettlement
  | .recordTxHash dto collection txHash =>
    (s.updateCollection collection.id ({ · with txHash := some txHash })).did dto.eventId .recordTxHash
  | .createTransaction dto =>
    if (s.findTransaction value).isSome then s
    else { s with transactions := s.transactions ++ [{ toTransaction := withdrawalTransaction dto value }] }
  | .auditCreated t dto =>
    s.audit
      { event := "pix.withdrawal.created", entityId := t.id, entityType := "transaction", userId := dto.userId,
        metadata := .object [("amount", .number dto.amount), ("pixKey", .string dto.pixKey)] }
  | .orderWithdrawal t dto => s.orderWithdrawal (pixWithdrawal env.users t.toTransaction dto)
  | .setPixOrder t pixOrderId => s.updateTransaction t.id ({ · with pixOrderId := some pixOrderId })

def confirmDeposit (t : PixTransaction) (dto : PixOrderCallback) : Flow :=
  match walletOf env.users t.userId with
  | none => .next (.failDeposit t dto)
  | some walletAddress =>
    match mintBrlt env.toStellarEnv walletAddress dto.amount with
    | .error e => .next (.auditMintFailed t dto ("Error: " ++ e.message))
    | .ok effect => .next (.mint t dto effect)

/-- The other statuses of an order change nothing. -/
def dispatchOrder (t : PixTransaction) (dto : PixOrderCallback) : Flow :=
  if dto.status = "CONFIRMED" ∧ dto.type = "DEPOSIT" then confirmDeposit env t dto
  else if dto.status = "CONFIRMED" ∧ dto.type = "WITHDRAWAL" then .next (.updateStatus t dto .completed)
  else if dto.status = "FAILED" then .next (.updateStatus t dto .failed)
  else if dto.status = "EXPIRED" then .next (.updateStatus t dto .expired)
  else .finished

/-- `settleInvoiceInPool`, up to where the transaction is simulated; nothing is sent when the pool is not set. -/
def settleInvoiceInPool (invoiceHash : String) (advanceAmountBrl : Rat) : Except ApiError (Option LedgerCalls) :=
  if env.poolContractConfigured = false then
    pure none
  else do
    let hash ← orThrow (bytesN32 (toBytes32 invoiceHash)) (.error "Soroban simulation failed [settle_invoice_in_pool]")
    pure (some
      { calls := [.pool (.settleInvoiceInPool env.platformAddress hash (env.stroops advanceAmountBrl))]
        auth := fun a => a = env.platformAddress })

/-- What is left once the settlement has returned a hash. -/
def afterSettlement (dto : PixCollectionCallback) (collection : Option ReceivableCollection) (txHash : Option String) :
    Flow :=
  match collection, txHash.filter (· ≠ "") with
  | some collection, some txHash => .next (.recordTxHash dto collection txHash)
  | _, _ => .finished

def settleInvoice (now : String) (s : PixState σ) (dto : PixCollectionCallback)
    (collection : Option ReceivableCollection) : Flow :=
  match s.findReceivable dto.receivableId with
  | none => .raised
  | some receivable =>
    if receivable.status = .other "settled" then
      afterSettlement dto collection receivable.paymentTxHash
    else
      match settleInvoiceInPool env receivable.id receivable.value with
      | .error _ => .raised
      | .ok none => .next (.markSettled dto collection receivable ("stellar-mock-pool-settlement-" ++ now))
      | .ok (some calls) => .next (.settleOnChain dto collection receivable calls)

/-- Where a call goes on after its statement, on the state that the statement met. -/
def PixCall.proceed (value : String) (s : PixState σ) : PixCall → Flow
  | .recordEvent callback =>
    if s.recorded callback.eventId then .finished
    else
      match callback with
      | .order dto => .next (.loadTransaction dto)
      | .collection dto => if dto.status = "PAID" then .next (.findCollection dto) else .finished
  | .loadTransaction dto =>
    match s.findTransaction dto.externalId with
    | none => .finished
    | some t => .next (.updatePixColumns t dto)
  | .updatePixColumns t dto => dispatchOrder env t dto
  | .approve t dto txHash => .next (.auditConfirmed t dto txHash)
  | .updateStatus t dto outcome => .next (.auditStatus t dto outcome)
  | .failDeposit .. | .auditConfirmed .. | .auditMintFailed .. | .auditStatus .. => .finished
  | .findCollection dto =>
    match s.findCollection dto.identifier with
    | none => .next (.findReceivable dto none)
    | some collection => .next (.markPaid dto collection)
  | .markPaid dto collection => .next (.findReceivable dto (some collection))
  | .findReceivable dto collection =>
    match ((s.findReceivable dto.receivableId).map (·.userId)).filter (· ≠ "") <|> env.fallbackUser with
    | none => .next (.findSettled dto collection)
    | some logUserId => .next (.auditPaid dto collection logUserId)
  | .auditPaid dto collection _ => .next (.findSettled dto collection)
  | .findSettled dto collection => settleInvoice env value s dto collection
  | .markSettled dto collection receivable txHash => .next (.createSettlement dto collection receivable txHash)
  | .createSettlement dto collection _ txHash => afterSettlement dto collection (some txHash)
  | .createTransaction dto =>
    if (s.findTransaction value).isSome then .raised
    else .next (.auditCreated { toTransaction := withdrawalTransaction dto value } dto)
  | .auditCreated t dto => .next (.orderWithdrawal t dto)
  | .orderWithdrawal t _ => .next (.setPixOrder t value)
  | .recordTxHash .. | .setPixOrder .. => .finished
  | .mint .. | .settleOnChain .. | .burn .. => .raised

/-- The handler of confirmed deposits catches what its mint and the two statements after it throw. -/
def PixCall.rescue (message : String) : PixCall → Flow
  | .mint t dto _ | .approve t dto _ | .auditConfirmed t dto _ => .next (.auditMintFailed t dto message)
  | _ => .raised

/-! ### Transactions -/

def PixEnv.brltToken : Address := env.address (env.stellarBrltTokenId.getD "")

def effectCalls : Effect → LedgerCalls
  | .mint toAddress amount =>
    { calls := [.tokenMint env.brltToken env.platformAddress (env.address toAddress) amount]
      auth := fun a => a = env.platformAddress }
  | .burn account amount =>
    { calls := [.tokenBurn env.brltToken (env.address account) amount], auth := fun a => a = env.address account }
  | .other => { calls := [.other], auth := fun _ => false }

def PixCall.submits : PixCall → Option LedgerCalls
  | .mint _ _ effect => some (effectCalls env effect)
  | .settleOnChain _ _ _ calls => some calls
  | .burn _ _ tx => some (effectCalls env tx.effect)
  | _ => none

def PixCall.landed (s : PixState σ) (chain : σ) : PixCall → PixState σ
  | .mint _ dto _ => { s with chain }.did dto.eventId .mint
  | .settleOnChain dto _ _ _ => { s with chain }.did dto.eventId .settleOnChain
  | _ => { s with chain }

/-- A transaction was confirmed to the call. -/
def PixCall.confirmed (txHash : String) (s : PixState σ) : PixCall → PixState σ × Flow
  | .mint t dto _ => (s, .next (.approve t dto txHash))
  | .settleOnChain dto collection receivable _ => (s, .next (.markSettled dto collection receivable txHash))
  | .burn userId dto tx =>
    ({ s with burns := s.burns ++ (tx.burnOf userId).toList },
      match env.users userId with
      | none => .raised
      | some _ => .next (.createTransaction (withdrawalDto userId dto tx.hash)))
  | _ => (s, .raised)

/-! ### The handler -/

def PixCall.goOn (call : PixCall) (s : PixState σ) : Flow → PixState σ × Option PixCall
  | .next call => (s, some call)
  | .finished => (match call.callback? with | some callback => s.acknowledge callback | none => s, none)
  | .raised => (s, none)

def submitCall (call : PixCall) (calls : LedgerCalls) (fate : Fate) (time : Nat) (txHash message : String)
    (s : PixState σ) : PixState σ × Option PixCall :=
  match land (env.execute time calls s.chain) fate with
  | .never => call.goOn s (call.rescue message)
  | .late chain => call.goOn (call.landed s chain) (call.rescue message)
  | .inTime chain =>
    let (s, flow) := call.confirmed env txHash (call.landed s chain)
    call.goOn s flow

def startPixCall (request : PixRequest) (s : PixState σ) : PixState σ × Option PixCall :=
  match request with
  | .callback callback =>
    if s.recorded callback.eventId then (s.acknowledge callback, none) else (s, some (.recordEvent callback))
  | .submitWithdrawal userId dto =>
    (s, (prepareWithdrawal env.toStellarEnv env.users userId dto).toOption.map (.burn userId dto))
  | .moveOrder externalId status => (s.moveOrder externalId status, none)

def resumePixCall (call : PixCall) (reply : PixReply) (s : PixState σ) : PixState σ × Option PixCall :=
  match reply, call.submits env with
  | .ok value, none => call.goOn (call.execute env value s) (call.proceed env value s)
  | .threw executed message, _ =>
    call.goOn (executed.elim s (call.execute env · s)) (call.rescue message)
  | .submitted fate time txHash message, some calls => submitCall env call calls fate time txHash message s
  | .ok _, some _ | .submitted .., none => (s, some call)

def pixApi : Handler (PixState σ) PixCall PixRequest PixReply where
  start := startPixCall env
  resume := resumePixCall env

end Calls

/-! ### A small setting -/

/-- The chain takes whatever it is sent. -/
def testPixEnv : PixEnv Unit where
  toStellarEnv := testStellar
  poolContractConfigured := true
  platformAddress := .account 0
  address _ := .account 1
  users := testUsers
  fallbackUser := none
  execute _ _ s := .ok s

end CredBridge.Api
