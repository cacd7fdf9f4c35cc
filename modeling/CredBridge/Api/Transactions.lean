import CredBridge.Api.Stellar
import CredBridge.Lib.Concurrent
import CredBridge.Lib.Json
import CredBridge.Lib.Table

/-! # Deposits and withdrawals of the API

The calls that write rows of `Transaction`: deposit orders and their payment, approvals by admins, callbacks of
the Pix service, and withdrawals. They read a row, check it, and write it later; mints and burns go through
the ledger and withdrawals through the Pix service in between, and neither is undone when what follows fails.
Users are not written by any of them. -/

namespace CredBridge.Api
open Concurrent Result Submission

inductive TransactionType where
  | deposit
  | withdrawal
  | other (value : String)
deriving DecidableEq, Repr

inductive TransactionStatus where
  | pending
  | pendingPayment
  | paymentSubmitted
  | approved
  | rejected
  | processing
  | completed
  | failed
  | expired
deriving DecidableEq, Repr

structure Transaction where
  id : String
  userId : String
  type : TransactionType
  amount : Rat
  status : TransactionStatus
  pixKey : Option String := none
  txHash : Option String := none
  approvedBy : Option String := none

structure TransactionUpdate where
  status : TransactionStatus
  txHash : Option String := none
  approvedBy : Option String := none

def Transaction.update (t : Transaction) (u : TransactionUpdate) : Transaction :=
  { t with status := u.status, txHash := u.txHash <|> t.txHash, approvedBy := u.approvedBy <|> t.approvedBy }

structure User where
  wallets : UserWallets
  role : String

structure CreatePixDepositDto where
  userId : String
  amount : Rat

structure CreatePixWithdrawalDto where
  userId : String
  amount : Rat
  pixKey : String
  pixKeyType : String
  description : Option String
  metadata : Option Json

structure SubmitWithdrawalDto where
  amount : Rat
  pixKey : String
  pixKeyType : String
  xdr : String
  signature : String

structure PixWebhookDto where
  eventId : String
  externalId : String
  type : String
  status : String
  amount : Rat

structure PixWithdrawal where
  externalId : String
  ownerId : String
  ownerRole : String
  amount : Rat
  pixKey : String
  pixKeyType : String
  description : String
  metadata : Option Json

structure ApiState where
  transactions : List Transaction
  webhookEvents : List String
  network : Network LedgerTx
  pixWithdrawals : List PixWithdrawal

def findTransaction (s : ApiState) (id : String) : Option Transaction := Table.find Transaction.id id s.transactions

def ApiState.createTransaction (s : ApiState) (t : Transaction) : ApiState :=
  if (findTransaction s t.id).isSome then s else { s with transactions := s.transactions ++ [t] }

def ApiState.updateTransaction (s : ApiState) (id : String) (u : TransactionUpdate) : ApiState :=
  { s with transactions := Table.modify Transaction.id id (·.update u) s.transactions }

/-! ### Calls -/

inductive ApiRequest where
  | createDepositOrder (dto : CreatePixDepositDto)
  | createWithdrawalOrder (dto : CreatePixWithdrawalDto)
  /-- With the balance that is read on the ledger, if it can be read. -/
  | buildWithdrawalTx (userId : String) (amount : Rat) (balance : Option Rat)
  | submitWithdrawal (userId : String) (dto : SubmitWithdrawalDto)
  | markAsPaid (transactionId investorUserId : String)
  | approveTransaction (id operatorId status : String)
  | processPixOrderCallback (dto : PixWebhookDto)
  | ledger (settlement : Settlement ClientTx)

inductive ApiCall where
  | createDeposit (dto : CreatePixDepositDto)
  | update (id : String) (u : TransactionUpdate)
  | sendMint (id : String) (effect : Effect) (u : TransactionUpdate)
  | awaitMint (id : String) (tx : LedgerTx) (u : TransactionUpdate)
  | withdrawFromPool (id : String) (u : TransactionUpdate)
  | recordEvent (dto : PixWebhookDto)
  | loadTransaction (dto : PixWebhookDto)
  | updatePixColumns (t : Transaction) (dto : PixWebhookDto)
  | sendBurn (userId : String) (dto : SubmitWithdrawalDto) (tx : LedgerTx)
  | awaitBurn (userId : String) (dto : SubmitWithdrawalDto) (tx : LedgerTx)
  | createWithdrawal (dto : CreatePixWithdrawalDto)
  | orderWithdrawal (t : Transaction) (dto : CreatePixWithdrawalDto)

/-- What a call gets from outside: the identifier of a new row, whether the network or the Pix service took what it was
    sent, whether the caller hears so, the hash of what was sent, and whether the deadline of a poll has passed. -/
structure Reply where
  uuid : String := ""
  accepted : Bool := true
  answered : Bool := true
  txHash : String := ""
  deadline : Bool := false

section Calls
variable (env : StellarEnv) (users : String → Option User)

def walletOf (userId : String) : Option String := (users userId).bind (·.wallets.address)

/-! ### Deposits -/

def checkPayable (s : ApiState) (transactionId investorUserId : String) : Except ApiError ApiCall := do
  let t ← orThrow ((findTransaction s transactionId).filter (·.userId = investorUserId))
    (.notFound "Transação não encontrada")
  throwIf (t.status ≠ .pendingPayment) (.badRequest "Esta transação não está pendente de pagamento")
  pure (.update transactionId { status := .paymentSubmitted })

/-- `approveTransaction` up to its first write or to what it sends. -/
def checkApproval (s : ApiState) (id operatorId status : String) : Except ApiError ApiCall := do
  let t ← orThrow (findTransaction s id) (.notFound "Transação não encontrada")
  throwIf (t.status ≠ .pending ∧ t.status ≠ .paymentSubmitted)
    (.badRequest "Esta transação não está pendente de aprovação")
  if status = "REJECTED" then
    pure (.update id { status := .rejected, approvedBy := some operatorId })
  else
    match t.type with
    | .deposit => do
      let user ← orThrow (users t.userId) (.notFound "Usuário investidor não encontrado")
      let walletAddress ← orThrow user.wallets.addressOr
        (.badRequest "Investidor não possui uma carteira Stellar configurada")
      let effect ← mintBrlt env walletAddress t.amount
      pure (.sendMint id effect { status := .approved, approvedBy := some operatorId })
    | .withdrawal => pure (.withdrawFromPool id { status := .approved, approvedBy := some operatorId })
    | .other _ => .error (.badRequest "Tipo de transação inválido")

def handleDepositConfirmed (t : Transaction) (dto : PixWebhookDto) : Option ApiCall :=
  match walletOf users t.userId with
  | none => some (.update t.id { status := .failed })
  | some walletAddress =>
    match mintBrlt env walletAddress dto.amount with
    | .error _ => none
    | .ok effect => some (.sendMint t.id effect { status := .approved })

def dispatchCallback (t : Transaction) (dto : PixWebhookDto) : Option ApiCall :=
  if dto.status = "CONFIRMED" ∧ dto.type = "DEPOSIT" then handleDepositConfirmed env users t dto
  else if dto.status = "CONFIRMED" ∧ dto.type = "WITHDRAWAL" then some (.update t.id { status := .completed })
  else if dto.status = "FAILED" then some (.update t.id { status := .failed })
  else if dto.status = "EXPIRED" then some (.update t.id { status := .expired })
  else none

/-! ### Withdrawals -/

def requireWallet (userId : String) : Except ApiError String :=
  orThrow (walletOf users userId) (.badRequest "Usuário não possui carteira Stellar configurada")

/-- The burn that the user is to sign. A balance that cannot be read is not checked. -/
def buildWithdrawalTx (toFixed : Rat → String) (userId : String) (amount : Rat) (balance : Option Rat) :
    Except ApiError Effect := do
  let address ← requireWallet users userId
  throwIf (balance.any (· < amount))
    (.badRequest ("Saldo insuficiente em BRLT (disponível: " ++ toFixed (balance.getD 0) ++ ")"))
  buildBurnBrltTx env address amount

def prepareWithdrawal (userId : String) (dto : SubmitWithdrawalDto) : Except ApiError LedgerTx := do
  let address ← requireWallet users userId
  prepareSignedTx env dto.xdr address dto.signature

def withdrawalDto (userId : String) (dto : SubmitWithdrawalDto) (burnTxHash : String) : CreatePixWithdrawalDto where
  userId := userId
  amount := dto.amount
  pixKey := dto.pixKey
  pixKeyType := dto.pixKeyType
  description := some "Saque CredBridge via Pix"
  metadata := some (.object [("burnTxHash", .string burnTxHash)])

/-- `dto.metadata?.burnTxHash`, if it is not empty. -/
def burnTxHash (metadata : Option Json) : Option String :=
  match metadata.bind (·.field? "burnTxHash") with
  | some (.string hash) => if hash = "" then none else some hash
  | _ => none

/-- Whether Prisma takes `dto.metadata?.burnTxHash || null` for the column of the hash. -/
def takesBurnTxHash (metadata : Option Json) : Bool :=
  match metadata.bind (·.field? "burnTxHash") with
  | none | some (.string _) => true
  | some value => !value.truthy

def withdrawalTransaction (dto : CreatePixWithdrawalDto) (id : String) : Transaction where
  id := id
  userId := dto.userId
  type := .withdrawal
  amount := dto.amount
  status := .processing
  pixKey := some dto.pixKey
  txHash := burnTxHash dto.metadata

def pixWithdrawal (t : Transaction) (dto : CreatePixWithdrawalDto) : PixWithdrawal where
  externalId := t.id
  ownerId := dto.userId
  ownerRole := if (users dto.userId).any (·.role = "pme") then "pme" else "investor"
  amount := dto.amount
  pixKey := dto.pixKey
  pixKeyType := dto.pixKeyType
  description := dto.description.getD "Saque CredBridge"
  metadata := dto.metadata

/-- `createWithdrawalOrder` up to its first write, which is refused for a hash that is no text. Whether BRLT was burned is
    left to the caller. -/
def checkWithdrawal (dto : CreatePixWithdrawalDto) : Except ApiError ApiCall := do
  let _ ← orThrow (users dto.userId) (.notFound "Usuário não encontrado")
  throwIf (takesBurnTxHash dto.metadata = false) (.error "Argument txHash: Invalid value provided")
  pure (.createWithdrawal dto)

/-! ### The handler -/

def clientTx (tx : ClientTx) : LedgerTx := { hash := tx.hash, effect := tx.effect }

def clientSettlement : Settlement ClientTx → Settlement LedgerTx
  | .land i => .land i
  | .fail i => .fail i
  | .drop i => .drop i
  | .other tx => .other (clientTx tx)

def startCall (request : ApiRequest) (s : ApiState) : ApiState × Option ApiCall :=
  match request with
  | .createDepositOrder dto => (s, (users dto.userId).map fun _ => .createDeposit dto)
  | .createWithdrawalOrder dto => (s, (checkWithdrawal users dto).toOption)
  | .buildWithdrawalTx _ _ _ => (s, none)
  | .submitWithdrawal userId dto => (s, (prepareWithdrawal env users userId dto).toOption.map (.sendBurn userId dto))
  | .markAsPaid transactionId investorUserId => (s, (checkPayable s transactionId investorUserId).toOption)
  | .approveTransaction id operatorId status => (s, (checkApproval env users s id operatorId status).toOption)
  | .processPixOrderCallback dto => (s, if dto.eventId ∈ s.webhookEvents then none else some (.recordEvent dto))
  | .ledger settlement => ({ s with network := s.network.settle (clientSettlement settlement) }, none)

/-- A transaction is sent; the call waits for it if it hears that the network took it. -/
def sendTransaction (tx : LedgerTx) (next : ApiCall) (reply : Reply) (s : ApiState) : ApiState × Option ApiCall :=
  ({ s with network := if reply.accepted then s.network.take tx else s.network },
    if reply.answered then some next else none)

def awaitConfirmation (tx : LedgerTx) (again : ApiCall) (next : Option ApiCall) (reply : Reply) (s : ApiState) :
    ApiState × Option ApiCall :=
  match pollConfirmation s.network tx reply.deadline with
  | .confirmed => (s, next)
  | .failed => (s, none)
  | .waiting => (s, some again)

def resumeCall (call : ApiCall) (reply : Reply) (s : ApiState) : ApiState × Option ApiCall :=
  match call with
  | .createDeposit dto =>
    (s.createTransaction
      { id := reply.uuid, userId := dto.userId, type := .deposit, amount := dto.amount, status := .pendingPayment },
      none)
  | .update id u => (s.updateTransaction id u, none)
  | .sendMint id effect u =>
    let tx : LedgerTx := { hash := reply.txHash, effect, onBehalfOf := some id }
    sendTransaction tx (.awaitMint id tx u) reply s
  | .awaitMint id tx u =>
    awaitConfirmation tx (.awaitMint id tx u) (some (.update id { u with txHash := some tx.hash })) reply s
  | .withdrawFromPool id u =>
    (s, if reply.answered then some (.update id { u with txHash := some reply.txHash }) else none)
  | .recordEvent dto =>
    if dto.eventId ∈ s.webhookEvents then (s, none)
    else ({ s with webhookEvents := s.webhookEvents ++ [dto.eventId] }, some (.loadTransaction dto))
  | .loadTransaction dto => (s, (findTransaction s dto.externalId).map (.updatePixColumns · dto))
  | .updatePixColumns t dto => (s, dispatchCallback env users t dto)
  | .sendBurn userId dto tx => sendTransaction tx (.awaitBurn userId dto tx) reply s
  | .awaitBurn userId dto tx =>
    awaitConfirmation tx (.awaitBurn userId dto tx) (checkWithdrawal users (withdrawalDto userId dto tx.hash)).toOption
      reply s
  | .createWithdrawal dto =>
    let t := withdrawalTransaction dto reply.uuid
    if (findTransaction s t.id).isSome then (s, none) else (s.createTransaction t, some (.orderWithdrawal t dto))
  | .orderWithdrawal t dto =>
    ({ s with pixWithdrawals := if reply.accepted then s.pixWithdrawals ++ [pixWithdrawal users t dto] else s.pixWithdrawals },
      none)

def transactionsApi : Handler ApiState ApiCall ApiRequest Reply where
  start := startCall env users
  resume := resumeCall env users

end Calls

/-! ### What the checks leave to be done -/

section Checks
variable {env : StellarEnv} {users : String → Option User} {s : ApiState} {call : ApiCall}

theorem createTransaction_kept {t : Transaction} :
    (s.createTransaction t).network = s.network ∧ (s.createTransaction t).pixWithdrawals = s.pixWithdrawals := by
  unfold ApiState.createTransaction
  split <;> exact ⟨rfl, rfl⟩

theorem checkPayable_inv {transactionId investorUserId : String}
    (h : checkPayable s transactionId investorUserId = .ok call) :
    call = .update transactionId { status := .paymentSubmitted } := by
  obtain ⟨t, -, h⟩ := orThrow_bind_eq_ok.mp h
  obtain ⟨-, h⟩ := throwIf_bind_eq_ok.mp h
  exact (pure_eq_ok.mp h).symm

theorem checkApproval_inv {id operatorId status : String}
    (h : checkApproval env users s id operatorId status = .ok call) :
    (∃ t toAddress u, findTransaction s id = some t ∧ t.type = .deposit ∧
        call = .sendMint id (.mint toAddress (env.stroops t.amount)) u) ∨
      ∃ u, call = .update id u ∨ call = .withdrawFromPool id u := by
  obtain ⟨t, ht, h⟩ := orThrow_bind_eq_ok.mp h
  obtain ⟨-, h⟩ := throwIf_bind_eq_ok.mp h
  split at h
  · cases pure_eq_ok.mp h
    exact .inr ⟨_, .inl rfl⟩
  · cases htype : t.type with
    | deposit =>
      simp only [htype] at h
      obtain ⟨user, -, h⟩ := orThrow_bind_eq_ok.mp h
      obtain ⟨walletAddress, -, h⟩ := orThrow_bind_eq_ok.mp h
      obtain ⟨effect, heffect, h⟩ := bind_eq_ok.mp h
      cases pure_eq_ok.mp h
      exact .inl ⟨t, walletAddress, _, ht, htype, by rw [mintBrlt_inv heffect]⟩
    | withdrawal =>
      simp only [htype] at h
      cases pure_eq_ok.mp h
      exact .inr ⟨_, .inr rfl⟩
    | other value =>
      simp only [htype] at h
      cases h

theorem dispatchCallback_inv {t : Transaction} {dto : PixWebhookDto}
    (h : dispatchCallback env users t dto = some call) :
    (∃ toAddress u, call = .sendMint t.id (.mint toAddress (env.stroops dto.amount)) u) ∨
      ∃ u, call = .update t.id u := by
  unfold dispatchCallback at h
  split at h
  · unfold handleDepositConfirmed at h
    split at h
    · cases h
      exact .inr ⟨_, rfl⟩
    · next walletAddress _ =>
      split at h
      · cases h
      · next effect heffect =>
        cases h
        exact .inl ⟨walletAddress, _, by rw [mintBrlt_inv heffect]⟩
  · split at h
    · cases h
      exact .inr ⟨_, rfl⟩
    · split at h
      · cases h
        exact .inr ⟨_, rfl⟩
      · split at h
        · cases h
          exact .inr ⟨_, rfl⟩
        · cases h

theorem prepareWithdrawal_inv {userId : String} {dto : SubmitWithdrawalDto} {tx : LedgerTx}
    (h : prepareWithdrawal env users userId dto = .ok tx) : tx.onBehalfOf = none := by
  obtain ⟨address, -, h⟩ := bind_eq_ok.mp h
  exact prepareSignedTx_inv h

theorem checkWithdrawal_inv {dto : CreatePixWithdrawalDto} (h : checkWithdrawal users dto = .ok call) :
    (users dto.userId).isSome ∧ call = .createWithdrawal dto := by
  obtain ⟨user, huser, h⟩ := orThrow_bind_eq_ok.mp h
  obtain ⟨-, h⟩ := throwIf_bind_eq_ok.mp h
  exact ⟨by rw [huser]; rfl, (pure_eq_ok.mp h).symm⟩

end Checks

/-! ### What a step does -/

/-- What a request does when it starts, apart from the ledger's own moves: it is over, or a call waits. -/
inductive Started (env : StellarEnv) (users : String → Option User) (s : ApiState) :
    ApiRequest → ApiState → Option ApiCall → Prop where
  | ended (request : ApiRequest) : Started env users s request s none
  | createDeposit (dto : CreatePixDepositDto) :
    Started env users s (.createDepositOrder dto) s (some (.createDeposit dto))
  | createWithdrawal (dto : CreatePixWithdrawalDto) (huser : (users dto.userId).isSome) :
    Started env users s (.createWithdrawalOrder dto) s (some (.createWithdrawal dto))
  | sendBurn (userId : String) (dto : SubmitWithdrawalDto) (tx : LedgerTx)
      (htx : prepareWithdrawal env users userId dto = .ok tx) :
    Started env users s (.submitWithdrawal userId dto) s (some (.sendBurn userId dto tx))
  | update (request : ApiRequest) (id : String) (u : TransactionUpdate) :
    Started env users s request s (some (.update id u))
  | sendMint (id operatorId status toAddress : String) (t : Transaction) (u : TransactionUpdate)
      (ht : findTransaction s id = some t) (htype : t.type = .deposit)
      (hcheck : checkApproval env users s id operatorId status =
        .ok (.sendMint id (.mint toAddress (env.stroops t.amount)) u)) :
    Started env users s (.approveTransaction id operatorId status) s
      (some (.sendMint id (.mint toAddress (env.stroops t.amount)) u))
  | withdrawFromPool (request : ApiRequest) (id : String) (u : TransactionUpdate) :
    Started env users s request s (some (.withdrawFromPool id u))
  | recordEvent (dto : PixWebhookDto) :
    Started env users s (.processPixOrderCallback dto) s (some (.recordEvent dto))
  | ledger (settlement : Settlement ClientTx) :
    Started env users s (.ledger settlement) { s with network := s.network.settle (clientSettlement settlement) } none

/-- What a call does when it goes on: it is over, or it waits again. -/
inductive Resumed (env : StellarEnv) (users : String → Option User) (s : ApiState) :
    ApiCall → ApiState → Option ApiCall → Prop where
  | ended (call : ApiCall) : Resumed env users s call s none
  | again (call : ApiCall) : Resumed env users s call s (some call)
  | createDeposit (dto : CreatePixDepositDto) (t : Transaction) :
    Resumed env users s (.createDeposit dto) (s.createTransaction t) none
  | update (id : String) (u : TransactionUpdate) :
    Resumed env users s (.update id u) (s.updateTransaction id u) none
  | sendMint (id : String) (effect : Effect) (u : TransactionUpdate) (reply : Reply) :
    Resumed env users s (.sendMint id effect u)
      { s with network :=
        if reply.accepted then s.network.take ⟨reply.txHash, effect, some id⟩ else s.network }
      (if reply.answered then some (.awaitMint id ⟨reply.txHash, effect, some id⟩ u) else none)
  | minted (id : String) (tx : LedgerTx) (u u' : TransactionUpdate) :
    Resumed env users s (.awaitMint id tx u) s (some (.update id u'))
  | withdrawn (id : String) (u u' : TransactionUpdate) :
    Resumed env users s (.withdrawFromPool id u) s (some (.update id u'))
  | recordEvent (dto : PixWebhookDto) :
    Resumed env users s (.recordEvent dto) { s with webhookEvents := s.webhookEvents ++ [dto.eventId] }
      (some (.loadTransaction dto))
  | loadTransaction (dto : PixWebhookDto) (t : Transaction) (ht : findTransaction s dto.externalId = some t) :
    Resumed env users s (.loadTransaction dto) s (some (.updatePixColumns t dto))
  | dispatch (t : Transaction) (dto : PixWebhookDto) (next : ApiCall)
      (hnext : dispatchCallback env users t dto = some next) :
    Resumed env users s (.updatePixColumns t dto) s (some next)
  | sendBurn (userId : String) (dto : SubmitWithdrawalDto) (tx : LedgerTx) (reply : Reply) :
    Resumed env users s (.sendBurn userId dto tx)
      { s with network := if reply.accepted then s.network.take tx else s.network }
      (if reply.answered then some (.awaitBurn userId dto tx) else none)
  | burned (userId : String) (dto : SubmitWithdrawalDto) (tx : LedgerTx) (hlanded : tx ∈ s.network.landed) :
    Resumed env users s (.awaitBurn userId dto tx) s (some (.createWithdrawal (withdrawalDto userId dto tx.hash)))
  | createWithdrawal (dto : CreatePixWithdrawalDto) (t : Transaction) :
    Resumed env users s (.createWithdrawal dto) (s.createTransaction t) (some (.orderWithdrawal t dto))
  | orderWithdrawal (t : Transaction) (dto : CreatePixWithdrawalDto) :
    Resumed env users s (.orderWithdrawal t dto)
      { s with pixWithdrawals := s.pixWithdrawals ++ [pixWithdrawal users t dto] } none

section Steps
variable {env : StellarEnv} {users : String → Option User} {s : ApiState}

theorem startCall_started (env : StellarEnv) (users : String → Option User) (s : ApiState) (request : ApiRequest) :
    Started env users s request (startCall env users request s).1 (startCall env users request s).2 := by
  cases request with
  | createDepositOrder dto =>
    simp only [startCall]
    cases users dto.userId with
    | none => exact .ended _
    | some user => exact .createDeposit dto
  | createWithdrawalOrder dto =>
    simp only [startCall]
    cases h : checkWithdrawal users dto with
    | error e => exact .ended _
    | ok call =>
      obtain ⟨huser, rfl⟩ := checkWithdrawal_inv h
      exact .createWithdrawal dto huser
  | buildWithdrawalTx userId amount balance => exact .ended _
  | submitWithdrawal userId dto =>
    simp only [startCall]
    cases h : prepareWithdrawal env users userId dto with
    | error e => exact .ended _
    | ok tx => exact .sendBurn userId dto tx h
  | markAsPaid transactionId investorUserId =>
    simp only [startCall]
    cases h : checkPayable s transactionId investorUserId with
    | error e => exact .ended _
    | ok call =>
      rw [checkPayable_inv h]
      exact .update _ _ _
  | approveTransaction id operatorId status =>
    simp only [startCall]
    cases h : checkApproval env users s id operatorId status with
    | error e => exact .ended _
    | ok call =>
      rcases checkApproval_inv h with ⟨t, toAddress, u, ht, htype, rfl⟩ | ⟨u, rfl | rfl⟩
      · exact .sendMint id operatorId status toAddress t u ht htype h
      · exact .update _ _ _
      · exact .withdrawFromPool _ _ _
  | processPixOrderCallback dto =>
    simp only [startCall]
    split
    · exact .ended _
    · exact .recordEvent dto
  | ledger settlement => exact .ledger settlement

/-- A poll is over, goes on when the transaction has landed, or is made again. -/
theorem awaitConfirmation_resumed {call : ApiCall} {tx : LedgerTx} {next : Option ApiCall} (reply : Reply)
    (hnext : tx ∈ s.network.landed → Resumed env users s call s next) :
    Resumed env users s call (awaitConfirmation tx call next reply s).1 (awaitConfirmation tx call next reply s).2 := by
  unfold awaitConfirmation
  cases h : pollConfirmation s.network tx reply.deadline with
  | confirmed => exact hnext (pollConfirmation_eq_confirmed.mp h)
  | failed => exact .ended _
  | waiting => exact .again _

theorem resumeCall_resumed (env : StellarEnv) (users : String → Option User) (s : ApiState) (call : ApiCall)
    (reply : Reply) :
    Resumed env users s call (resumeCall env users call reply s).1 (resumeCall env users call reply s).2 := by
  cases call with
  | createDeposit dto => exact .createDeposit dto _
  | update id u => exact .update id u
  | sendMint id effect u => exact .sendMint id effect u reply
  | awaitMint id tx u => exact awaitConfirmation_resumed reply fun _ => .minted id tx u _
  | withdrawFromPool id u =>
    simp only [resumeCall]
    split
    · exact .withdrawn id u _
    · exact .ended _
  | recordEvent dto =>
    simp only [resumeCall]
    split
    · exact .ended _
    · exact .recordEvent dto
  | loadTransaction dto =>
    simp only [resumeCall]
    cases h : findTransaction s dto.externalId with
    | none => exact .ended _
    | some t => exact .loadTransaction dto t h
  | updatePixColumns t dto =>
    simp only [resumeCall]
    cases h : dispatchCallback env users t dto with
    | none => exact .ended _
    | some next => exact .dispatch t dto next h
  | sendBurn userId dto tx => exact .sendBurn userId dto tx reply
  | awaitBurn userId dto tx =>
    refine awaitConfirmation_resumed reply fun hlanded => ?_
    cases h : checkWithdrawal users (withdrawalDto userId dto tx.hash) with
    | error e => exact .ended _
    | ok call =>
      rw [(checkWithdrawal_inv h).2]
      exact .burned userId dto tx hlanded
  | createWithdrawal dto =>
    simp only [resumeCall]
    split
    · exact .ended _
    · exact .createWithdrawal dto _
  | orderWithdrawal t dto =>
    simp only [resumeCall]
    split
    · exact .orderWithdrawal t dto
    · exact .ended _

end Steps

/-! ### A small setting -/

def testStellar : StellarEnv where
  configured := true
  stellarBrltTokenId := some "BRLT"
  fromXDR xdr := if xdr = "burn" then some ⟨"burn-hash", .burn "GINVESTOR" 500000000⟩ else none
  verify address hash signatureHex := address = "GINVESTOR" ∧ hash = "burn-hash" ∧ signatureHex = "signature"
  stroops amount := (amount * 10000000 + 1 / 2).floor

def testUsers (userId : String) : Option User :=
  if userId = "investor" then some ⟨⟨some "GINVESTOR", none⟩, "investor"⟩ else none

end CredBridge.Api
