import CredBridge.Api.Transactions

/-! # Stages of a deposit

Once a deposit is approved, its investor approves the pool as a spender of the minted BRLT and deposits them in it. Both
transactions are signed by the investor and sent by the API; the second one completes the deposit. What the signed
transactions do is not checked. -/

namespace CredBridge.Api
open Concurrent Result Submission

inductive DepositStage where
  | approve
  | deposit
deriving DecidableEq, Repr

structure SubmitDepositStageDto where
  stage : DepositStage
  xdr : String
  signature : String

structure StageRequest where
  transactionId : String
  investorUserId : String
  dto : SubmitDepositStageDto

inductive StageCall where
  | send (transactionId : String) (stage : DepositStage) (tx : LedgerTx)
  | await (transactionId : String) (stage : DepositStage) (tx : LedgerTx)
  | complete (transactionId hash : String)

section Stages
variable (env : StellarEnv) (users : String → Option User)

def resolveInvestorAddress (investorUserId : String) : Except ApiError String :=
  orThrow (walletOf users investorUserId) (.badRequest "Investidor não possui carteira Stellar configurada")

def loadApprovedDeposit (s : ApiState) (transactionId investorUserId : String) : Except ApiError Transaction := do
  let t ← orThrow ((findTransaction s transactionId).filter (·.userId = investorUserId))
    (.notFound "Transação não encontrada")
  throwIf (t.type ≠ .deposit) (.badRequest "Transação não é um depósito")
  throwIf (t.status ≠ .approved) (.badRequest "Esta transação ainda não foi aprovada pelo admin")
  pure t

/-- `submitDepositStage` up to what it sends. -/
def prepareDepositStage (s : ApiState) (request : StageRequest) : Except ApiError StageCall := do
  let t ← loadApprovedDeposit s request.transactionId request.investorUserId
  let investorAddress ← resolveInvestorAddress users request.investorUserId
  let tx ← prepareSignedTx env request.dto.xdr investorAddress request.dto.signature
  pure (.send t.id request.dto.stage tx)

def resumeStage (call : StageCall) (reply : Reply) (s : ApiState) : ApiState × Option StageCall :=
  match call with
  | .send transactionId stage tx =>
    ({ s with network := if reply.accepted then s.network.take tx else s.network },
      if reply.answered then some (.await transactionId stage tx) else none)
  | .await transactionId stage tx =>
    match pollConfirmation s.network tx reply.deadline with
    | .confirmed => (s, if stage = .deposit then some (.complete transactionId tx.hash) else none)
    | .failed => (s, none)
    | .waiting => (s, some (.await transactionId stage tx))
  | .complete transactionId hash =>
    (s.updateTransaction transactionId { status := .completed, txHash := some hash }, none)

def depositStages : Handler ApiState StageCall StageRequest Reply where
  start request s := (s, (prepareDepositStage env users s request).toOption)
  resume := resumeStage

/-- Everything that writes rows of `Transaction`. -/
def transactionCalls : Handler ApiState (ApiCall ⊕ StageCall) (ApiRequest ⊕ StageRequest) Reply :=
  (transactionsApi env users).sum (depositStages env users)

theorem prepareDepositStage_inv {env : StellarEnv} {users : String → Option User} {s : ApiState} {request : StageRequest}
    {call : StageCall} (h : prepareDepositStage env users s request = .ok call) :
    ∃ transactionId stage tx, call = .send transactionId stage tx ∧ tx.onBehalfOf = none := by
  obtain ⟨t, -, h⟩ := bind_eq_ok.mp h
  obtain ⟨investorAddress, -, h⟩ := bind_eq_ok.mp h
  obtain ⟨tx, htx, h⟩ := bind_eq_ok.mp h
  exact ⟨t.id, request.dto.stage, tx, (pure_eq_ok.mp h).symm, prepareSignedTx_inv htx⟩

end Stages
end CredBridge.Api
