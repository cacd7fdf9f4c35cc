import CredBridge.Api.InvoiceHash
import CredBridge.Api.Investments

/-! # The life of a receivable, statement by statement

A receivable is created, approved or rejected by an operator, tokenized, and assigned to the platform, with or without
its payout by the pool. Each of these calls reads the status, works on the chain and writes the status at last; the
write looks at nothing but the identifier. Purchases and the settlement that a paid collection starts write it too,
beside them. -/

namespace CredBridge.Api
open Concurrent Contracts Result Submission

structure CreateReceivableDto where
  value : Rat
  type : String
  debtorName : String
  debtorDocument : String
  dueDate : String

/-- The tables and the chain; a purchase works on the tables of purchases and on the receivables. -/
structure CreditState (σ : Type) extends PixState σ where
  investments : List Investment := []
  authorizations : AuthorizationStore := .empty
  payments : List Payment := []
  nftTransfers : List NftTransfer := []
  purchaseJournal : List PurchaseEvent := []
  documents : List CreateDocumentDto := []
  collectionOrders : List CollectionOrder := []

structure CreditEnv (σ : Type) where
  pix : PixEnv σ
  purchase : PurchaseEnv
  tokenization : TokenizationEnv
  runtime : Runtime
  wallets : String → Option UserWallets
  custodialUsers : String → Option CustodialUser
  /-- `new Date(text)`. -/
  date : String → Int
  /-- The call of `transfer_ownership` with the platform's address as a third argument, where the contract has one. -/
  transferWithPlatform : (receivableKey : String) → Option ContractCall

def ReceivableRow.setStatus (r : ReceivableRow) (status : ReceivableStatus) : ReceivableRow :=
  { r with toReceivable := { r.toReceivable with status } }

namespace CreditState
variable {σ : Type} (s : CreditState σ)

def updateReceivable (id : String) (change : ReceivableRow → ReceivableRow) : CreditState σ :=
  { s with toPixState := s.toPixState.updateReceivable id change }

def setStatus (id : String) (status : ReceivableStatus) : CreditState σ :=
  s.updateReceivable id (·.setStatus status)

def audit (log : AuditLog) : CreditState σ := { s with toPixState := s.toPixState.audit log }

def landed (chain : σ) : CreditState σ := { s with chain }

/-! What a purchase works on -/

def purchaseState : PurchaseState where
  receivables := s.receivables.map (·.toReceivable)
  investments := s.investments
  authorizations := s.authorizations
  payments := s.payments
  nftTransfers := s.nftTransfers
  journal := s.purchaseJournal

def withPurchases (p : PurchaseState) : CreditState σ :=
  { s with
    receivables := List.zipWith (fun row r => { row with toReceivable := r }) s.receivables p.receivables
    investments := p.investments
    authorizations := p.authorizations
    payments := p.payments
    nftTransfers := p.nftTransfers
    purchaseJournal := p.journal }

end CreditState

inductive ReceivableRequest where
  | create (userId : String) (dto : CreateReceivableDto)
  | approveReceivable (id operatorId : String)
  | rejectReceivable (id operatorId : String)
  /-- Also `activate`. -/
  | tokenize (id : String)
  | requestAssignment (id : String)
  | assign (id authorizationId : String)
  | submitAssignment (id unsignedXdr signatureHex : String)
  | createDocument (data : CreateDocumentDto)
  /-- A transaction of anyone else. -/
  | transact (time : Nat) (tx : LedgerCalls)

/-- What a call waits for, once its audit log has taken the entries that come first. -/
inductive ReceivableStep where
  | create (userId : String) (dto : CreateReceivableDto)
  | validate (id operatorId : String)
  | reject (id operatorId : String)
  | findValidated (id : String)
  | invokeTokenize (r : ReceivableRow)
  | setTokenized (r : ReceivableRow) (txHash : String)
  | setAssignmentPending (id : String)
  | authorize (r : ReceivableRow) (authorizationId : String)
  | consume (r : ReceivableRow) (input : FinancialAuthorizationConsumption)
  | invokeTransfer (r : ReceivableRow) (authorizationId : String)
  | setAssigned (r : ReceivableRow) (authorizationId txHash : String)
  | submitSigned (r : ReceivableRow) (wallet : String) (tx : SignedTx)
  | invokeBuy (r : ReceivableRow) (wallet txHash : String)
  | setBought (r : ReceivableRow) (txHash poolTxHash : String)
  | createCollection (r : ReceivableRow) (txHash poolTxHash : String)
  | orderCollection (r : ReceivableRow) (txHash poolTxHash collectionId : String)
  | setIdentifier (r : ReceivableRow) (txHash poolTxHash collectionId identifier : String)
  | createDocument (data : CreateDocumentDto)
  | setDocumentHash (data : CreateDocumentDto)
  | done

structure ReceivableCall where
  logs : List AuditLog := []
  step : ReceivableStep

inductive ReceivableReply where
  /-- Done, with an identifier and the time. -/
  | ok (drawn : Drawn)
  /-- An exception, with what was drawn for what was done all the same. -/
  | threw (executed : Option Drawn)
  /-- What became of a transaction, and when it was included. -/
  | submitted (fate : Fate) (time : Nat) (txHash : String)

inductive ReceivableFlow where
  | next (call : ReceivableCall)
  | raised

section Checks
variable {σ : Type} (env : CreditEnv σ) (s : CreditState σ)

/-- `findUnique`, and a check of the status. -/
def checkStatus (id : String) (statuses : List ReceivableStatus) (missing refused : ApiError) :
    Except ApiError ReceivableRow := do
  let receivable ← orThrow (s.findReceivable id) missing
  throwIf (receivable.status ∉ statuses) refused
  pure receivable

def checkPending (id : String) : Except ApiError ReceivableRow :=
  checkStatus s id [.pending] (.notFound "Recebível não encontrado")
    (.badRequest "Este recebível não está com status pendente")

def receivableNotFound (id : String) : ApiError := .notFound ("Receivable " ++ id ++ " not found")

def checkValidated (id : String) : Except ApiError ReceivableRow :=
  checkStatus s id [.validated] (receivableNotFound id) (.conflict "Receivable must be validated before tokenization")

def checkTokenized (id : String) : Except ApiError ReceivableRow :=
  checkStatus s id [.tokenized] (receivableNotFound id) (.conflict "Receivable must be tokenized before assignment")

def checkAssignable (id : String) : Except ApiError ReceivableRow :=
  checkStatus s id [.tokenized, .assignmentPending] (receivableNotFound id)
    (.conflict "Receivable must be tokenized before assignment")

def pmeWallet (r : ReceivableRow) : Except ApiError String :=
  orThrow ((env.wallets r.userId).bind fun user => user.privyStellarWalletAddress.filter (· ≠ ""))
    (.notFound ("Stellar privy wallet for user " ++ r.userId ++ " not found"))

/-- `submitAssignment`, up to its first transaction. -/
def checkSubmission (id unsignedXdr signatureHex : String) : Except ApiError ReceivableStep := do
  let receivable ← checkAssignable s id
  let wallet ← pmeWallet env receivable
  let tx ← submitSignedAssignment env.tokenization.toAssignmentEnv unsignedXdr signatureHex wallet
  pure (.submitSigned receivable wallet tx)

end Checks

/-! ### The audit log -/

def receivableAudit (event id userId : String) (metadata : List (String × Json)) (txHash : Option String := none) :
    AuditLog :=
  { event, entityId := id, entityType := "receivable", userId, txHash, metadata := .object metadata }

def createdLog (runtime : Runtime) (id userId : String) (dto : CreateReceivableDto) (dueDate : Int) : AuditLog :=
  receivableAudit "receivable.created" id userId
    [("value", .number dto.value), ("type", .string dto.type), ("debtorName", .string dto.debtorName),
      ("debtorDocument", .string dto.debtorDocument), ("dueDate", .string (runtime.toISOString dueDate))]

def tokenizeLogs (r : ReceivableRow) : List AuditLog :=
  [receivableAudit "receivable.ready_for_blockchain" r.id r.userId
      [("network", .string "stellar"), ("contract", .string "soroban-nft")],
    receivableAudit "receivable.nft_minting" r.id r.userId
      [("value", .number r.value), ("xmlHash", textOrNull r.documentHash)]]

def tokenizedLogs (r : ReceivableRow) (txHash : String) : List AuditLog :=
  [receivableAudit "receivable.tokenized_by_policy" r.id r.userId
      [("network", .string "stellar"), ("authorization", .string "policy")] (some txHash),
    receivableAudit "receivable.tx_confirmed" r.id r.userId
      [("network", .string "stellar"), ("status", .string "success")] (some txHash)]

def assignedLog (r : ReceivableRow) (authorizationId txHash : String) : AuditLog :=
  receivableAudit "receivable.assignment_signed" r.id r.userId [("authorizationId", .string authorizationId)]
    (some txHash)

def boughtLog (r : ReceivableRow) (txHash poolTxHash : String) : AuditLog :=
  receivableAudit "receivable.assignment_signed" r.id r.userId
    [("source", .string "privy_blockchain_signing"), ("poolTxHash", .string poolTxHash)] (some txHash)

def collectionLog (r : ReceivableRow) (collectionId : String) : AuditLog :=
  { event := "pix.collection.created", entityId := collectionId, entityType := "receivable_collection",
    userId := r.userId, metadata := .object [("amount", .number r.value), ("receivableId", .string r.id)] }

def consumedLog (authorization : FinancialAuthorization) (input : FinancialAuthorizationConsumption) : AuditLog :=
  { event := "financial_authorization.consumed", entityId := authorization.id,
    entityType := "financial_authorization", userId := input.userId,
    metadata := .object [("operation", .string authorization.operation.value),
      ("resourceId", textOrNull authorization.resourceId), ("amount", textOrNull authorization.amount),
      ("destination", textOrNull authorization.destination), ("walletId", .string authorization.walletId),
      ("payloadHash", .string authorization.payloadHash)] }

/-! ### Statements -/

section Calls
variable {σ : Type} (env : CreditEnv σ)

def newReceivable (id userId : String) (dto : CreateReceivableDto) (dueDate : Int) : ReceivableRow where
  id := id
  userId := userId
  value := dto.value
  status := .pending
  debtorName := dto.debtorName
  debtorDocument := dto.debtorDocument
  documentHash := none
  dueDate := dueDate

def assignmentConsumption (r : ReceivableRow) (authorizationId : String) : FinancialAuthorizationConsumption where
  authorizationId := authorizationId
  userId := r.userId
  operation := .receivableAssignment
  resourceId := some r.id
  amount := some (env.purchase.toFixed r.value 2)
  destination := some "credbridge-pool"

def ReceivableStep.execute (drawn : Drawn) (s : CreditState σ) : ReceivableStep → CreditState σ
  | .create userId dto =>
    if (s.findReceivable drawn.uuid).isSome then s
    else { s with receivables := s.receivables ++ [newReceivable drawn.uuid userId dto (env.date dto.dueDate)] }
  | .validate id _ => s.setStatus id .validated
  | .reject id _ => s.setStatus id (.other "rejected")
  | .setTokenized r txHash =>
    s.updateReceivable r.id fun r => { r.setStatus .tokenized with txHash := some txHash }
  | .setAssignmentPending id => s.setStatus id .assignmentPending
  | .consume _ input => { s with authorizations := s.authorizations.setConsumed input drawn.now }
  | .setAssigned r _ _ | .setBought r _ _ => s.setStatus r.id .active
  | .createCollection r _ _ =>
    { s with
      receivableCollections :=
        s.receivableCollections ++ [⟨drawn.uuid, r.id, none, "pending_payment", none, none, none⟩] }
  | .orderCollection r _ _ _ => { s with collectionOrders := s.collectionOrders ++ [collectionOrder r.toReceivable] }
  | .setIdentifier _ _ _ collectionId identifier =>
    { s with toPixState := s.toPixState.updateCollection collectionId ({ · with identifier := some identifier }) }
  | .createDocument data =>
    if (s.findReceivable data.receivableId).isSome then { s with documents := s.documents ++ [data] } else s
  | .setDocumentHash data => s.updateReceivable data.receivableId ({ · with documentHash := some data.hash })
  | .findValidated _ | .authorize .. | .invokeTokenize _ | .invokeTransfer .. | .submitSigned .. | .invokeBuy ..
  | .done => s

/-- Where a call goes on after its statement, on the state that the statement met. -/
def ReceivableStep.proceed (drawn : Drawn) (s : CreditState σ) : ReceivableStep → ReceivableFlow
  | .create userId dto =>
    if (s.findReceivable drawn.uuid).isSome then .raised
    else .next ⟨[createdLog env.runtime drawn.uuid userId dto (env.date dto.dueDate)], .done⟩
  | .validate id operatorId =>
    .next
      { logs := [receivableAudit "receivable.validated" id operatorId [("approvedByOperator", .bool true)]]
        step := .findValidated id }
  | .reject id operatorId =>
    .next ⟨[receivableAudit "receivable.rejected" id operatorId [("rejectedByOperator", .bool true)]], .done⟩
  | .findValidated id =>
    match checkValidated s id with
    | .error _ => .raised
    | .ok r => .next ⟨tokenizeLogs r, .invokeTokenize r⟩
  | .setTokenized r txHash => .next ⟨tokenizedLogs r txHash, .done⟩
  | .authorize r authorizationId =>
    let input := assignmentConsumption env r authorizationId
    match checkConsumable s.authorizations input drawn.now with
    | .error _ => .raised
    | .ok _ => .next { step := .consume r input }
  | .consume r input =>
    match (findAuthorization s.authorizations input.authorizationId).filter (·.Consumable input drawn.now) with
    | none => .raised
    | some authorization => .next ⟨[consumedLog authorization input], .invokeTransfer r input.authorizationId⟩
  | .setAssigned r authorizationId txHash => .next ⟨[assignedLog r authorizationId txHash], .done⟩
  | .setBought r txHash poolTxHash => .next { step := .createCollection r txHash poolTxHash }
  | .createCollection r txHash poolTxHash =>
    .next ⟨[collectionLog r drawn.uuid], .orderCollection r txHash poolTxHash drawn.uuid⟩
  | .orderCollection r txHash poolTxHash collectionId =>
    .next { step := .setIdentifier r txHash poolTxHash collectionId drawn.uuid }
  | .setIdentifier r txHash poolTxHash _ _ => .next ⟨[boughtLog r txHash poolTxHash], .done⟩
  | .createDocument data =>
    if (s.findReceivable data.receivableId).isNone then .raised
    else if data.type = .invoice then .next { step := .setDocumentHash data }
    else .next { step := .done }
  | .setAssignmentPending _ | .setDocumentHash _ | .done => .next { step := .done }
  | .invokeTokenize _ | .invokeTransfer .. | .submitSigned .. | .invokeBuy .. => .raised

/-- What `submitAssignment` asks of the Pix service may fail. -/
def ReceivableStep.rescue : ReceivableStep → ReceivableFlow
  | .createCollection r txHash poolTxHash | .orderCollection r txHash poolTxHash _
  | .setIdentifier r txHash poolTxHash _ _ => .next ⟨[boughtLog r txHash poolTxHash], .done⟩
  | _ => .raised

/-! ### Transactions -/

/-- `transferNftToPlatform`, up to where the transaction is simulated. -/
def transferNftToPlatform (receivableKey : String) : Except ApiError LedgerCalls := do
  requireAssignmentConfig env.tokenization.toAssignmentEnv
  let call ← orThrow (env.transferWithPlatform receivableKey) (.error "Soroban simulation failed [transfer_ownership]")
  pure { calls := [call], auth := fun a => a = env.tokenization.platformAddress }

/-- The transaction that a step sends; a step that cannot build it raises. -/
def ReceivableStep.submits : ReceivableStep → Option (Except ApiError LedgerCalls)
  | .invokeTokenize r => some (tokenizeNfe env.tokenization env.wallets (tokenizeInput r.toReceivable))
  | .invokeTransfer r _ => some (transferNftToPlatform env r.id)
  | .submitSigned _ _ tx => some (.ok tx.calls)
  | .invokeBuy r wallet _ =>
    some (buyTokenizedInvoiceInPool env.tokenization.toAssignmentEnv wallet
      (r.documentHash.getD "00000000000000000000000000000000") r.value)
  | _ => none

/-- Where a call goes on when its transaction was confirmed. -/
def ReceivableStep.confirmed (txHash : String) : ReceivableStep → ReceivableFlow
  | .invokeTokenize r => .next { step := .setTokenized r txHash }
  | .invokeTransfer r authorizationId => .next { step := .setAssigned r authorizationId txHash }
  | .submitSigned r wallet _ => .next { step := .invokeBuy r wallet txHash }
  | .invokeBuy r _ assignmentTxHash => .next { step := .setBought r assignmentTxHash txHash }
  | _ => .raised

/-! ### The handler -/

def ReceivableCall.goOn (s : CreditState σ) : ReceivableFlow → CreditState σ × Option ReceivableCall
  | .next { logs := [], step := .done } | .raised => (s, none)
  | .next call => (s, some call)

def ReceivableStep.submit (step : ReceivableStep) (calls : LedgerCalls) (fate : Fate) (time : Nat) (txHash : String)
    (s : CreditState σ) : CreditState σ × Option ReceivableCall :=
  match land (env.pix.execute time calls s.chain) fate with
  | .never => ReceivableCall.goOn s step.rescue
  | .late chain => ReceivableCall.goOn (s.landed chain) step.rescue
  | .inTime chain => ReceivableCall.goOn (s.landed chain) (step.confirmed txHash)

def ReceivableStep.resume (step : ReceivableStep) (reply : ReceivableReply) (s : CreditState σ) :
    CreditState σ × Option ReceivableCall :=
  match reply, step.submits env with
  | .ok drawn, none => ReceivableCall.goOn (step.execute env drawn s) (step.proceed env drawn s)
  | .threw executed, _ => ReceivableCall.goOn (executed.elim s (step.execute env · s)) step.rescue
  | .submitted fate time txHash, some (.ok calls) => step.submit env calls fate time txHash s
  | .submitted .., some (.error _) => ReceivableCall.goOn s step.rescue
  | .ok _, some _ | .submitted .., none => (s, some { step })

def startReceivable (request : ReceivableRequest) (s : CreditState σ) : CreditState σ × Option ReceivableCall :=
  match request with
  | .create userId dto => (s, some { step := .create userId dto })
  | .approveReceivable id operatorId =>
    (s, (checkPending s id).toOption.map fun _ => { step := .validate id operatorId })
  | .rejectReceivable id operatorId => (s, (checkPending s id).toOption.map fun _ => { step := .reject id operatorId })
  | .tokenize id => (s, (checkValidated s id).toOption.map fun r => ⟨tokenizeLogs r, .invokeTokenize r⟩)
  | .requestAssignment id => (s, (checkTokenized s id).toOption.map fun _ => { step := .setAssignmentPending id })
  | .assign id authorizationId =>
    (s, (checkAssignable s id).toOption.map fun r => { step := .authorize r authorizationId })
  | .submitAssignment id unsignedXdr signatureHex =>
    (s, (checkSubmission env s id unsignedXdr signatureHex).toOption.map fun step => { step })
  | .createDocument data => (s, some { step := .createDocument data })
  | .transact time tx => (((env.pix.execute time tx s.chain).toOption).elim s s.landed, none)

def resumeReceivable (call : ReceivableCall) (reply : ReceivableReply) (s : CreditState σ) :
    CreditState σ × Option ReceivableCall :=
  match call.logs, reply with
  | [], _ => call.step.resume env reply s
  | log :: logs, .ok _ => ReceivableCall.goOn (s.audit log) (.next { call with logs })
  | log :: _, .threw executed => ReceivableCall.goOn (executed.elim s fun _ => s.audit log) call.step.rescue
  | _ :: _, .submitted .. => (s, some call)

end Calls

/-! ### A step of a call -/

/-- Where a call stands after a reply: it waits on, an entry of the audit log or its statement was done, it threw, or its
    transaction was not included, was included too late, or was confirmed. -/
inductive ReceivableResumed {σ : Type} (env : CreditEnv σ) (s : CreditState σ) (r : CreditState σ × Option ReceivableCall) :
    ReceivableCall → ReceivableReply → Prop where
  | waits (call : ReceivableCall) (reply : ReceivableReply)
      (hwaits : (∃ submission, call.step.submits env = some submission) ∨
        ∃ fate time txHash, reply = .submitted fate time txHash)
      (hr : r = (s, some call)) : ReceivableResumed env s r call reply
  | logged (log : AuditLog) (logs : List AuditLog) (step : ReceivableStep) (drawn : Drawn)
      (hr : r = ReceivableCall.goOn (s.audit log) (.next ⟨logs, step⟩)) :
    ReceivableResumed env s r ⟨log :: logs, step⟩ (.ok drawn)
  | unlogged (log : AuditLog) (logs : List AuditLog) (step : ReceivableStep) (executed : Option Drawn)
      (hr : r = ReceivableCall.goOn (executed.elim s fun _ => s.audit log) step.rescue) :
    ReceivableResumed env s r ⟨log :: logs, step⟩ (.threw executed)
  | ok (step : ReceivableStep) (drawn : Drawn)
      (hr : r = ReceivableCall.goOn (step.execute env drawn s) (step.proceed env drawn s)) :
    ReceivableResumed env s r ⟨[], step⟩ (.ok drawn)
  | threw (step : ReceivableStep) (executed : Option Drawn)
      (hr : r = ReceivableCall.goOn (executed.elim s (step.execute env · s)) step.rescue) :
    ReceivableResumed env s r ⟨[], step⟩ (.threw executed)
  | never (step : ReceivableStep) (fate : Fate) (time : Nat) (txHash : String)
      (hr : r = ReceivableCall.goOn s step.rescue) : ReceivableResumed env s r ⟨[], step⟩ (.submitted fate time txHash)
  | late (step : ReceivableStep) (fate : Fate) (time : Nat) (txHash : String) (tx : LedgerCalls) (chain : σ)
      (hsubmits : step.submits env = some (.ok tx)) (hexecute : env.pix.execute time tx s.chain = .ok chain)
      (hr : r = ReceivableCall.goOn (s.landed chain) step.rescue) :
    ReceivableResumed env s r ⟨[], step⟩ (.submitted fate time txHash)
  | confirmed (step : ReceivableStep) (fate : Fate) (time : Nat) (txHash : String) (tx : LedgerCalls) (chain : σ)
      (hsubmits : step.submits env = some (.ok tx)) (hexecute : env.pix.execute time tx s.chain = .ok chain)
      (hr : r = ReceivableCall.goOn (s.landed chain) (step.confirmed txHash)) :
    ReceivableResumed env s r ⟨[], step⟩ (.submitted fate time txHash)

section Steps
variable {σ : Type} {s : CreditState σ}

theorem resumeReceivable_resumed (env : CreditEnv σ) (call : ReceivableCall) (reply : ReceivableReply)
    (s : CreditState σ) : ReceivableResumed env s (resumeReceivable env call reply s) call reply := by
  obtain ⟨_ | ⟨log, logs⟩, step⟩ := call
  · cases reply with
    | ok drawn =>
      cases hsubmits : step.submits env with
      | none => exact .ok step drawn (by simp only [resumeReceivable, ReceivableStep.resume, hsubmits])
      | some submission =>
        exact .waits _ _ (.inl ⟨submission, hsubmits⟩)
          (by simp only [resumeReceivable, ReceivableStep.resume, hsubmits])
    | threw executed => exact .threw step executed rfl
    | submitted fate time txHash =>
      rcases hsubmits : step.submits env with _ | _ | tx
      · exact .waits _ _ (.inr ⟨fate, time, txHash, rfl⟩)
          (by simp only [resumeReceivable, ReceivableStep.resume, hsubmits])
      · exact .never step fate time txHash (by simp only [resumeReceivable, ReceivableStep.resume, hsubmits])
      · cases hland : land (env.pix.execute time tx s.chain) fate with
        | never =>
          exact .never step fate time txHash
            (by simp only [resumeReceivable, ReceivableStep.resume, hsubmits, ReceivableStep.submit, hland])
        | late chain =>
          exact .late step fate time txHash tx chain hsubmits (land_cases (.inl hland))
            (by simp only [resumeReceivable, ReceivableStep.resume, hsubmits, ReceivableStep.submit, hland])
        | inTime chain =>
          exact .confirmed step fate time txHash tx chain hsubmits (land_cases (.inr hland))
            (by simp only [resumeReceivable, ReceivableStep.resume, hsubmits, ReceivableStep.submit, hland])
  · cases reply with
    | ok drawn => exact .logged log logs step drawn rfl
    | threw executed => exact .unlogged log logs step executed rfl
    | submitted fate time txHash => exact .waits _ _ (.inr ⟨fate, time, txHash, rfl⟩) rfl

theorem receivableGoOn_fst (flow : ReceivableFlow) : (ReceivableCall.goOn s flow).1 = s := by
  unfold ReceivableCall.goOn
  split <;> rfl

theorem receivableGoOn_next {flow : ReceivableFlow} {call : ReceivableCall}
    (h : (ReceivableCall.goOn s flow).2 = some call) : flow = .next call := by
  unfold ReceivableCall.goOn at h
  split at h <;> cases h
  rfl

end Steps

/-! ### All calls -/

inductive CreditRequest where
  | pix (request : PixRequest)
  | purchase (request : PurchaseRequest)
  | receivable (request : ReceivableRequest)

inductive CreditCall where
  | pix (call : PixCall)
  | purchase (call : PurchaseCall)
  | receivable (call : ReceivableCall)

inductive CreditReply where
  | pix (reply : PixReply)
  | purchase (reply : PurchaseReply)
  | receivable (reply : ReceivableReply)

/-- A reply that is not for the call leaves it waiting. -/
def creditApi {σ : Type} (env : CreditEnv σ) : Handler (CreditState σ) CreditCall CreditRequest CreditReply where
  start request s :=
    match request with
    | .pix request =>
      let r := startPixCall env.pix request s.toPixState
      ({ s with toPixState := r.1 }, r.2.map .pix)
    | .purchase request =>
      let r := startPurchase env.runtime request s.purchaseState
      (s.withPurchases r.1, r.2.map .purchase)
    | .receivable request =>
      let r := startReceivable env request s
      (r.1, r.2.map .receivable)
  resume call reply s :=
    match call, reply with
    | .pix call, .pix reply =>
      let r := resumePixCall env.pix call reply s.toPixState
      ({ s with toPixState := r.1 }, r.2.map .pix)
    | .purchase call, .purchase reply =>
      let r := resumePurchase env.purchase env.custodialUsers call reply s.purchaseState
      (s.withPurchases r.1, r.2.map .purchase)
    | .receivable call, .receivable reply =>
      let r := resumeReceivable env call reply s
      (r.1, r.2.map .receivable)
    | call, _ => (s, some call)

end CredBridge.Api
