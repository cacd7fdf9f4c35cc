import CredBridge.Api.Investments
import CredBridge.Api.InvoiceHash
import CredBridge.Contracts.Abi

/-! # The argument vectors of the API

Each place where the API invokes a contract encodes the arguments by hand, into a vector that the contract's host then
decodes. A text that is no address raises before the invocation is built. What becomes of an integer is up to the SDK: one
in the range of its kind is kept as it is (`EncodesInts`). -/

namespace CredBridge.Api
open Abi Contracts Result

/-- What the vectors are made with. The keys of the contracts are as they are configured; an address is the one that its
    text denotes, if it denotes any. -/
structure VectorEnv extends TokenizationEnv where
  isAddress : String → Bool
  /-- `nativeToScVal(n, { type })` of an integer. -/
  nativeToScVal : Ty → Int → Except ApiError (Val Address)
  /-- The RPC server and the platform's key are set. -/
  serverConfigured : Bool
  poolContractId : Option String
  brltContractId : Option String

/-- The places where the API invokes a contract, with what the vector is made of. A wallet is the one that was resolved for
    the user; the ledger is the latest one, if Horizon knows any. -/
inductive CallSite where
  | tokenizeNfe (pmeAddress : String) (data : TokenizeNfeInput)
  | transferNftToPlatform (receivableKey : String)
  | prepareAssignment (receivableKey : String)
  | transferNftToInvestor (receivableKey investorAddress : String)
  | settleInvoiceInPool (invoiceHash : String) (advanceAmountBrl : Rat)
  | buyTokenizedInvoiceInPool (sellerAddress xmlHash : String) (value : Rat)
  | mintBrlt (toAddress : String) (amount : Rat)
  | depositToPoolMint (investorAddress : String) (amountBrl : Rat)
  | depositToPoolApprove (investorAddress : String) (amountBrl : Rat) (latestLedger : Option Nat)
  | depositToPoolDeposit (investorAddress : String) (amountBrl : Rat)
  | withdrawFromPool (investorAddress : String) (shareAmount : Rat)
  | buildApproveTx (investorAddress : String) (amountBrl : Rat) (latestLedger : Option Nat)
  | buildDepositTx (investorAddress : String) (amountBrl : Rat)
  | buildBurnBrltTx (userAddress : String) (amountBrl : Rat)

/-! ### Values -/

/-- What the SDK makes of an integer is of the kind that is asked for, and the integer itself if the kind has it. -/
structure VectorEnv.EncodesInts (env : VectorEnv) : Prop where
  i128 : ∀ {n v}, env.nativeToScVal .i128 n = .ok v → ∃ c : I128, v = .i128 c ∧ (Ty.i128.InRange n → c.1 = n)
  u64 : ∀ {n v}, env.nativeToScVal .u64 n = .ok v → ∃ c : U64, v = .u64 c ∧ (Ty.u64.InRange n → (c.1 : Int) = n)
  u32 : ∀ {n v}, env.nativeToScVal .u32 n = .ok v → ∃ c : U32, v = .u32 c ∧ (Ty.u32.InRange n → (c.1 : Int) = n)

def liveUntilLedger (latestLedger : Option Nat) : Nat := latestLedger.getD 3000000 + 100000

section Vectors
variable (env : VectorEnv)

def addressVal (text : String) : Except ApiError (Val Address) := do
  throwIf (env.isAddress text = false) (.error ("Unsupported address type: " ++ text))
  pure (.address (env.address text))

def platformVal : Val Address := .address env.platformAddress

def requireServer : Except ApiError Unit :=
  throwIf (env.serverConfigured = false) (.error "Stellar RPC server not configured")

def requirePool : Except ApiError String :=
  orThrow (env.poolContractId.filter (· ≠ "")) (.error "STELLAR_POOL_CONTRACT_ID not configured")

def requireBrlt : Except ApiError String :=
  orThrow (env.brltContractId.filter (· ≠ "")) (.error "STELLAR_BRLT_TOKEN_ID not configured")

/-! ### Vectors -/

def tokenizeNfeVector (pmeAddress : String) (data : TokenizeNfeInput) : Except ApiError VectorCall := do
  requireAssignmentConfig env.toAssignmentEnv
  let value ← env.nativeToScVal .i128 (env.centavos data.value)
  let dueDate ← env.nativeToScVal .u64 (data.dueDate.fdiv 1000)
  let owner ← addressVal env pmeAddress
  pure ⟨.nfeTokenization, "tokenize_nfe",
    [.string data.key, value, dueDate, .bytes (xmlHashBytes env.toTokenizationEnv data), owner, platformVal env]⟩

/-- The transfer with the platform as a third argument, which two of its three places make. -/
def transferWithPlatform (receivableKey : String) (newOwner : Val Address) : VectorCall :=
  ⟨.nfeTokenization, "transfer_ownership", [.string receivableKey, newOwner, platformVal env]⟩

def transferNftToPlatformVector (receivableKey : String) : Except ApiError VectorCall := do
  requireAssignmentConfig env.toAssignmentEnv
  pure (transferWithPlatform env receivableKey (platformVal env))

def prepareAssignmentVector (receivableKey : String) : Except ApiError VectorCall := do
  requireAssignmentConfig env.toAssignmentEnv
  pure ⟨.nfeTokenization, "transfer_ownership", [.string receivableKey, platformVal env]⟩

def transferNftToInvestorVector (receivableKey investorAddress : String) : Except ApiError VectorCall := do
  requireAssignmentConfig env.toAssignmentEnv
  let investor ← addressVal env investorAddress
  pure (transferWithPlatform env receivableKey investor)

def settleInvoiceInPoolVector (invoiceHash : String) (advanceAmountBrl : Rat) : Except ApiError VectorCall := do
  let _ ← requirePool env
  requireServer env
  let amount ← env.nativeToScVal .i128 (env.stroops advanceAmountBrl)
  pure ⟨.liquidityPool, "settle_invoice_in_pool", [platformVal env, .bytes (toBytes32 invoiceHash), amount]⟩

def buyTokenizedInvoiceInPoolVector (sellerAddress xmlHash : String) (value : Rat) : Except ApiError VectorCall := do
  requireAssignmentConfig env.toAssignmentEnv
  let _ ← requirePool env
  let seller ← addressVal env sellerAddress
  let amount ← env.nativeToScVal .i128 (env.stroops value)
  let rate ← env.nativeToScVal .i128 100
  let maturity ← env.nativeToScVal .u64 1800000000
  pure ⟨.liquidityPool, "buy_tokenized_invoice",
    [platformVal env, seller, .bytes (toBytes32 xmlHash), amount, amount, rate, maturity]⟩

def mintVector (toAddress : String) (amount : Rat) : Except ApiError VectorCall := do
  let receiver ← addressVal env toAddress
  let amount ← env.nativeToScVal .i128 (env.stroops amount)
  pure ⟨.brlt, "mint", [platformVal env, receiver, amount]⟩

def mintBrltVector (toAddress : String) (amount : Rat) : Except ApiError VectorCall := do
  requireAssignmentConfig env.toAssignmentEnv
  let _ ← requireBrlt env
  mintVector env toAddress amount

def approveVector (pool investorAddress : String) (amountBrl : Rat) (latestLedger : Option Nat) :
    Except ApiError VectorCall := do
  let investor ← addressVal env investorAddress
  let spender ← addressVal env pool
  let amount ← env.nativeToScVal .i128 (env.stroops amountBrl)
  let ledger ← env.nativeToScVal .u32 (liveUntilLedger latestLedger)
  pure ⟨.brlt, "approve", [investor, spender, amount, ledger]⟩

/-- A call by a holder, with an amount. -/
def holderVector (contract : ContractName) (method holderAddress : String) (amount : Rat) : Except ApiError VectorCall := do
  let holder ← addressVal env holderAddress
  let amount ← env.nativeToScVal .i128 (env.stroops amount)
  pure ⟨contract, method, [holder, amount]⟩

/-- What `depositToPool` needs; without it, no invocation is built and a mock hash is returned. -/
def requireDepositToPool : Except ApiError String := do
  let pool ← requirePool env
  let _ ← requireBrlt env
  requireServer env
  pure pool

def depositToPoolMintVector (investorAddress : String) (amountBrl : Rat) : Except ApiError VectorCall := do
  let _ ← requireDepositToPool env
  mintVector env investorAddress amountBrl

def depositToPoolApproveVector (investorAddress : String) (amountBrl : Rat) (latestLedger : Option Nat) :
    Except ApiError VectorCall := do
  let pool ← requireDepositToPool env
  approveVector env pool investorAddress amountBrl latestLedger

def depositToPoolDepositVector (investorAddress : String) (amountBrl : Rat) : Except ApiError VectorCall := do
  let _ ← requireDepositToPool env
  holderVector env .liquidityPool "deposit" investorAddress amountBrl

def withdrawFromPoolVector (investorAddress : String) (shareAmount : Rat) : Except ApiError VectorCall := do
  let _ ← requirePool env
  requireServer env
  holderVector env .liquidityPool "withdraw" investorAddress shareAmount

def buildApproveTxVector (investorAddress : String) (amountBrl : Rat) (latestLedger : Option Nat) :
    Except ApiError VectorCall := do
  let pool ← requirePool env
  let _ ← requireBrlt env
  let vector ← approveVector env pool investorAddress amountBrl latestLedger
  requireServer env
  pure vector

def buildDepositTxVector (investorAddress : String) (amountBrl : Rat) : Except ApiError VectorCall := do
  let _ ← requirePool env
  let vector ← holderVector env .liquidityPool "deposit" investorAddress amountBrl
  requireServer env
  pure vector

def buildBurnBrltTxVector (userAddress : String) (amountBrl : Rat) : Except ApiError VectorCall := do
  let _ ← requireBrlt env
  let vector ← holderVector env .brlt "burn" userAddress amountBrl
  requireServer env
  pure vector

/-- The invocation of a place, if it builds any. -/
def CallSite.vector : CallSite → Except ApiError VectorCall
  | .tokenizeNfe pmeAddress data => tokenizeNfeVector env pmeAddress data
  | .transferNftToPlatform receivableKey => transferNftToPlatformVector env receivableKey
  | .prepareAssignment receivableKey => prepareAssignmentVector env receivableKey
  | .transferNftToInvestor receivableKey investorAddress => transferNftToInvestorVector env receivableKey investorAddress
  | .settleInvoiceInPool invoiceHash advanceAmountBrl => settleInvoiceInPoolVector env invoiceHash advanceAmountBrl
  | .buyTokenizedInvoiceInPool sellerAddress xmlHash value =>
    buyTokenizedInvoiceInPoolVector env sellerAddress xmlHash value
  | .mintBrlt toAddress amount => mintBrltVector env toAddress amount
  | .depositToPoolMint investorAddress amountBrl => depositToPoolMintVector env investorAddress amountBrl
  | .depositToPoolApprove investorAddress amountBrl latestLedger =>
    depositToPoolApproveVector env investorAddress amountBrl latestLedger
  | .depositToPoolDeposit investorAddress amountBrl => depositToPoolDepositVector env investorAddress amountBrl
  | .withdrawFromPool investorAddress shareAmount => withdrawFromPoolVector env investorAddress shareAmount
  | .buildApproveTx investorAddress amountBrl latestLedger => buildApproveTxVector env investorAddress amountBrl latestLedger
  | .buildDepositTx investorAddress amountBrl => buildDepositTxVector env investorAddress amountBrl
  | .buildBurnBrltTx userAddress amountBrl => buildBurnBrltTxVector env userAddress amountBrl

end Vectors

/-! ### What a vector is made of -/

section Inversion
variable {env : VectorEnv} {v : VectorCall} {text : String} {val : Val Address}

theorem VectorEnv.EncodesInts.i128_iff (henv : env.EncodesInts) {n : Int} (h : env.nativeToScVal .i128 n = .ok val) :
    ∃ c : I128, val = .i128 c ∧ (c.1 = n ↔ Ty.i128.InRange n) := by
  obtain ⟨c, hval, hc⟩ := henv.i128 h
  exact ⟨c, hval, fun heq => heq ▸ c.2, hc⟩

theorem VectorEnv.EncodesInts.u64_iff (henv : env.EncodesInts) {n : Int} (h : env.nativeToScVal .u64 n = .ok val) :
    ∃ c : U64, val = .u64 c ∧ ((c.1 : Int) = n ↔ Ty.u64.InRange n) := by
  obtain ⟨c, hval, hc⟩ := henv.u64 h
  refine ⟨c, hval, fun heq => ⟨?_, ?_⟩, hc⟩
  · rw [← heq]
    exact Int.natCast_nonneg _
  · rw [← heq]
    exact Int.ofNat_lt.mpr c.2

theorem VectorEnv.EncodesInts.u32_iff (henv : env.EncodesInts) {n : Int} (h : env.nativeToScVal .u32 n = .ok val) :
    ∃ c : U32, val = .u32 c ∧ ((c.1 : Int) = n ↔ Ty.u32.InRange n) := by
  obtain ⟨c, hval, hc⟩ := henv.u32 h
  refine ⟨c, hval, fun heq => ⟨?_, ?_⟩, hc⟩
  · rw [← heq]
    exact Int.natCast_nonneg _
  · rw [← heq]
    exact Int.ofNat_lt.mpr c.2

theorem addressVal_inv (h : addressVal env text = .ok val) : val = .address (env.address text) := by
  obtain ⟨-, h⟩ := throwIf_bind_eq_ok.mp h
  exact (pure_eq_ok.mp h).symm

theorem mintVector_inv (henv : env.EncodesInts) {toAddress : String} {amount : Rat}
    (h : mintVector env toAddress amount = .ok v) :
    ∃ c : I128, (c.1 = env.stroops amount ↔ Ty.i128.InRange (env.stroops amount)) ∧
      v = (TypedCall.mint env.platformAddress (env.address toAddress) c).vector := by
  obtain ⟨receiver, hreceiver, h⟩ := bind_eq_ok.mp h
  obtain ⟨_, hamount, h⟩ := bind_eq_ok.mp h
  obtain rfl := addressVal_inv hreceiver
  obtain ⟨c, rfl, hc⟩ := henv.i128_iff hamount
  exact ⟨c, hc, (pure_eq_ok.mp h).symm⟩

theorem approveVector_inv (henv : env.EncodesInts) {pool investorAddress : String} {amountBrl : Rat} {latestLedger : Option Nat}
    (h : approveVector env pool investorAddress amountBrl latestLedger = .ok v) :
    ∃ (c : I128) (ledger : U32), (c.1 = env.stroops amountBrl ↔ Ty.i128.InRange (env.stroops amountBrl)) ∧
      ((ledger.1 : Int) = liveUntilLedger latestLedger ↔ Ty.u32.InRange (liveUntilLedger latestLedger)) ∧
      v = (TypedCall.approve (env.address investorAddress) (env.address pool) c ledger).vector := by
  obtain ⟨investor, hinvestor, h⟩ := bind_eq_ok.mp h
  obtain ⟨spender, hspender, h⟩ := bind_eq_ok.mp h
  obtain ⟨_, hamount, h⟩ := bind_eq_ok.mp h
  obtain ⟨_, hledger, h⟩ := bind_eq_ok.mp h
  obtain rfl := addressVal_inv hinvestor
  obtain rfl := addressVal_inv hspender
  obtain ⟨c, rfl, hc⟩ := henv.i128_iff hamount
  obtain ⟨ledger, rfl, hl⟩ := henv.u32_iff hledger
  exact ⟨c, ledger, hc, hl, (pure_eq_ok.mp h).symm⟩

theorem holderVector_inv (henv : env.EncodesInts) {contract : ContractName} {method holderAddress : String} {amount : Rat}
    (h : holderVector env contract method holderAddress amount = .ok v) :
    ∃ c : I128, (c.1 = env.stroops amount ↔ Ty.i128.InRange (env.stroops amount)) ∧
      v = ⟨contract, method, [.address (env.address holderAddress), .i128 c]⟩ := by
  obtain ⟨holder, hholder, h⟩ := bind_eq_ok.mp h
  obtain ⟨_, hamount, h⟩ := bind_eq_ok.mp h
  obtain rfl := addressVal_inv hholder
  obtain ⟨c, rfl, hc⟩ := henv.i128_iff hamount
  exact ⟨c, hc, (pure_eq_ok.mp h).symm⟩

/-! The host takes a vector with a hash exactly if the hash has 32 bytes -/

theorem tokenizeNfeVector_dispatch (henv : env.EncodesInts) {pmeAddress : String} {data : TokenizeNfeInput}
    (h : tokenizeNfeVector env pmeAddress data = .ok v) :
    ∃ (value : I128) (dueDate : U64), (value.1 = env.centavos data.value ↔ Ty.i128.InRange (env.centavos data.value)) ∧
      ((dueDate.1 : Int) = data.dueDate.fdiv 1000 ↔ Ty.u64.InRange (data.dueDate.fdiv 1000)) ∧
      v.dispatch = (bytesN32 (xmlHashBytes env.toTokenizationEnv data)).map fun hash =>
        .tokenizeNfe data.key value dueDate hash (env.address pmeAddress) env.platformAddress := by
  obtain ⟨_, -, h⟩ := bind_eq_ok.mp h
  obtain ⟨_, hvalue, h⟩ := bind_eq_ok.mp h
  obtain ⟨_, hdueDate, h⟩ := bind_eq_ok.mp h
  obtain ⟨_, howner, h⟩ := bind_eq_ok.mp h
  obtain ⟨value, rfl, hval⟩ := henv.i128_iff hvalue
  obtain ⟨dueDate, rfl, hdue⟩ := henv.u64_iff hdueDate
  obtain rfl := addressVal_inv howner
  cases pure_eq_ok.mp h
  refine ⟨value, dueDate, hval, hdue, (dispatch_function .tokenizeNfe _).trans ?_⟩
  unfold bytesN32
  simp only [Function.params, decodeArgs, decode]
  split <;> rfl

theorem settleInvoiceInPoolVector_dispatch (henv : env.EncodesInts) {invoiceHash : String} {advanceAmountBrl : Rat}
    (h : settleInvoiceInPoolVector env invoiceHash advanceAmountBrl = .ok v) :
    ∃ amount : I128, (amount.1 = env.stroops advanceAmountBrl ↔ Ty.i128.InRange (env.stroops advanceAmountBrl)) ∧
      v.dispatch = (bytesN32 (toBytes32 invoiceHash)).map fun hash =>
        .settleInvoiceInPool env.platformAddress hash amount := by
  obtain ⟨_, -, h⟩ := bind_eq_ok.mp h
  obtain ⟨_, -, h⟩ := bind_eq_ok.mp h
  obtain ⟨_, hamount, h⟩ := bind_eq_ok.mp h
  obtain ⟨amount, rfl, hval⟩ := henv.i128_iff hamount
  cases pure_eq_ok.mp h
  refine ⟨amount, hval, (dispatch_function .settleInvoiceInPool _).trans ?_⟩
  unfold bytesN32
  simp only [Function.params, decodeArgs, decode]
  split <;> rfl

theorem buyTokenizedInvoiceInPoolVector_dispatch (henv : env.EncodesInts) {sellerAddress xmlHash : String} {value : Rat}
    (h : buyTokenizedInvoiceInPoolVector env sellerAddress xmlHash value = .ok v) :
    ∃ (amount rate : I128) (maturity : U64), (amount.1 = env.stroops value ↔ Ty.i128.InRange (env.stroops value)) ∧
      rate.1 = 100 ∧ (maturity.1 : Int) = 1800000000 ∧
      v.dispatch = (bytesN32 (toBytes32 xmlHash)).map fun hash =>
        .buyTokenizedInvoice env.platformAddress (env.address sellerAddress) hash amount amount rate maturity := by
  obtain ⟨_, -, h⟩ := bind_eq_ok.mp h
  obtain ⟨_, -, h⟩ := bind_eq_ok.mp h
  obtain ⟨_, hseller, h⟩ := bind_eq_ok.mp h
  obtain ⟨_, hamount, h⟩ := bind_eq_ok.mp h
  obtain ⟨_, hrate, h⟩ := bind_eq_ok.mp h
  obtain ⟨_, hmaturity, h⟩ := bind_eq_ok.mp h
  obtain rfl := addressVal_inv hseller
  obtain ⟨amount, rfl, hval⟩ := henv.i128_iff hamount
  obtain ⟨rate, rfl, hr⟩ := henv.i128_iff hrate
  obtain ⟨maturity, rfl, hm⟩ := henv.u64_iff hmaturity
  cases pure_eq_ok.mp h
  refine ⟨amount, rate, maturity, hval, hr.mpr (by unfold Ty.InRange; decide), hm.mpr (by unfold Ty.InRange; decide),
    (dispatch_function .buyTokenizedInvoice _).trans ?_⟩
  unfold bytesN32
  simp only [Function.params, decodeArgs, decode]
  split <;> rfl

/-- No function takes a transfer of ownership with a third argument. -/
theorem transferWithPlatform_dispatch {receivableKey : String} {newOwner : Val Address} :
    (transferWithPlatform env receivableKey newOwner).dispatch = none := by
  have hargs : decodeArgs Function.transferOwnership.params (transferWithPlatform env receivableKey newOwner).args = none :=
    decodeArgs_eq_none (show 3 ≠ 2 by decide)
  exact (dispatch_function .transferOwnership _).trans (congrArg (Option.map _) hargs)

end Inversion

/-! ### What is sent

A vector that the host takes is sent as the call that it is taken as; with another one the simulation fails. -/

section Sent
variable {env : VectorEnv} {v : VectorCall} (brlt : Address)

def sent (env : VectorEnv) (method : String) (v : VectorCall) : Except ApiError LedgerCalls := do
  let call ← orThrow v.dispatch (.error ("Soroban simulation failed [" ++ method ++ "]"))
  pure { calls := [call.contractCall brlt], auth := fun a => a = env.platformAddress }

theorem tokenizeNfe_sent {users : String → Option UserWallets} {data : TokenizeNfeInput} {pmeAddress : String}
    (henv : env.EncodesInts) (hu64 : ∀ n, Ty.u64.InRange n → env.u64 n = .ok n.toNat)
    (hvalue : Ty.i128.InRange (env.centavos data.value)) (hdueDate : Ty.u64.InRange (data.dueDate.fdiv 1000))
    (haddress : (users data.ownerUserId).bind (·.address) = some pmeAddress)
    (h : tokenizeNfeVector env pmeAddress data = .ok v) :
    tokenizeNfe env.toTokenizationEnv users data = sent brlt env "tokenize_nfe" v := by
  obtain ⟨value, dueDate, hval, hdue, hdispatch⟩ := tokenizeNfeVector_dispatch henv h
  obtain ⟨_, hconfig, -⟩ := bind_eq_ok.mp h
  have hdue : env.u64 (data.dueDate.fdiv 1000) = .ok dueDate.1 := by
    rw [hu64 _ hdueDate, ← hdue.mpr hdueDate]
    rfl
  unfold tokenizeNfe sent
  rw [hdispatch, hconfig, haddress]
  simp only [bind, Except.bind, orThrow, hdue]
  cases bytesN32 (xmlHashBytes env.toTokenizationEnv data) with
  | none => rfl
  | some hash =>
    simp only [Option.map_some, TypedCall.contractCall, hval.mpr hvalue]

theorem buyTokenizedInvoiceInPool_sent {sellerAddress xmlHash : String} {value : Rat}
    (henv : env.EncodesInts) (hvalue : Ty.i128.InRange (env.stroops value)) (hpool : env.poolContractConfigured = true)
    (h : buyTokenizedInvoiceInPoolVector env sellerAddress xmlHash value = .ok v) :
    buyTokenizedInvoiceInPool env.toAssignmentEnv sellerAddress xmlHash value =
      sent brlt env "buy_tokenized_invoice" v := by
  obtain ⟨amount, rate, maturity, hamount, hrate, hmaturity, hdispatch⟩ := buyTokenizedInvoiceInPoolVector_dispatch henv h
  obtain ⟨_, hconfig, -⟩ := bind_eq_ok.mp h
  have hmaturity : maturity.1 = 1800000000 := by omega
  unfold buyTokenizedInvoiceInPool sent
  rw [hdispatch, hconfig]
  simp only [bind, Except.bind, orThrow, throwIf, hpool]
  cases bytesN32 (toBytes32 xmlHash) with
  | none => rfl
  | some hash => simp [TypedCall.contractCall, hamount.mpr hvalue, hrate, hmaturity]

theorem prepareAssignment_sent {receivableKey : String} (h : prepareAssignmentVector env receivableKey = .ok v) :
    v.dispatch.map (TypedCall.contractCall brlt) = some (prepareAssignment env.toAssignmentEnv receivableKey) := by
  obtain ⟨_, -, h⟩ := bind_eq_ok.mp h
  cases pure_eq_ok.mp h
  exact congrArg (Option.map _) (dispatch_vector (.transferOwnership receivableKey env.platformAddress))

end Sent
end CredBridge.Api
