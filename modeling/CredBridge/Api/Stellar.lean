import CredBridge.Lib.Result
import CredBridge.Lib.Submission

/-! # Transactions of the API on the ledger

The API submits transactions that it signs itself, and transactions that clients build and sign. Either way it
asks for the status of what it sent until the transaction succeeds or fails, or a minute has passed. A
transaction stands for its hash. -/

namespace CredBridge.Api
open Result Submission

inductive ApiError where
  | notFound (message : String)
  | badRequest (message : String)
  | conflict (message : String)
  | error (message : String)
deriving DecidableEq, Repr

def ApiError.message : ApiError → String
  | .notFound message | .badRequest message | .conflict message | .error message => message

inductive Effect where
  | mint (toAddress : String) (amount : Int)
  | burn (account : String) (amount : Int)
  | other
deriving DecidableEq, Repr

/-- A transaction; the API's mints are made for a row of its `Transaction` table. -/
structure LedgerTx where
  hash : String
  effect : Effect
  onBehalfOf : Option String := none
deriving DecidableEq, Repr

structure ClientTx where
  hash : String
  effect : Effect

structure StellarEnv where
  /-- The RPC server, the platform's key and the contract are set. -/
  configured : Bool
  stellarBrltTokenId : Option String
  fromXDR : String → Option ClientTx
  /-- A signature, in hexadecimal digits, of a hash verifies under the key of an address. -/
  verify : (address hash signatureHex : String) → Bool
  /-- `BigInt(Math.round(amount * 10_000_000))`. -/
  stroops : Rat → Int

structure UserWallets where
  privyStellarWalletAddress : Option String
  stellarWalletId : Option String

/-- `a ?? b`, if it is not empty. -/
def UserWallets.address (user : UserWallets) : Option String :=
  (user.privyStellarWalletAddress <|> user.stellarWalletId).filter (· ≠ "")

/-- `a || b`, if it is not empty. -/
def UserWallets.addressOr (user : UserWallets) : Option String :=
  user.privyStellarWalletAddress.filter (· ≠ "") <|> user.stellarWalletId.filter (· ≠ "")

section Stellar
variable (env : StellarEnv)

def requireContractConfig : Except ApiError Unit :=
  throwIf (env.configured = false)
    (.error "Stellar contract not configured — set STELLAR_RPC_URL, STELLAR_SECRET_KEY, STELLAR_NFE_CONTRACT_ID")

def requireBrltToken : Except ApiError String :=
  orThrow (env.stellarBrltTokenId.filter (· ≠ "")) (.error "STELLAR_BRLT_TOKEN_ID not configured")

def mintBrlt (toAddress : String) (amount : Rat) : Except ApiError Effect := do
  requireContractConfig env
  let _ ← requireBrltToken env
  pure (.mint toAddress (env.stroops amount))

theorem mintBrlt_inv {env : StellarEnv} {toAddress : String} {amount : Rat} {effect : Effect}
    (h : mintBrlt env toAddress amount = .ok effect) : effect = .mint toAddress (env.stroops amount) := by
  obtain ⟨_, -, h⟩ := bind_eq_ok.mp h
  obtain ⟨_, -, h⟩ := bind_eq_ok.mp h
  exact (pure_eq_ok.mp h).symm

def buildBurnBrltTx (userAddress : String) (amountBrl : Rat) : Except ApiError Effect := do
  let _ ← requireBrltToken env
  throwIf (env.configured = false) (.error "Stellar RPC server not configured")
  pure (.burn userAddress (env.stroops amountBrl))

/-- `submitSignedTx`, up to where it sends the transaction: its signature is checked, what it does is not. -/
def prepareSignedTx (xdr signerPublicKey signatureHex : String) : Except ApiError LedgerTx := do
  throwIf (env.configured = false) (.error "Stellar RPC server not configured")
  let tx ← orThrow (env.fromXDR xdr) (.error "invalid XDR")
  throwIf (env.verify signerPublicKey tx.hash signatureHex = false)
    (.error "Signature does not match transaction hash")
  pure { hash := tx.hash, effect := tx.effect }

theorem prepareSignedTx_inv {env : StellarEnv} {xdr signerPublicKey signatureHex : String} {tx : LedgerTx}
    (h : prepareSignedTx env xdr signerPublicKey signatureHex = .ok tx) : tx.onBehalfOf = none := by
  obtain ⟨-, h⟩ := throwIf_bind_eq_ok.mp h
  obtain ⟨_, -, h⟩ := orThrow_bind_eq_ok.mp h
  obtain ⟨-, h⟩ := throwIf_bind_eq_ok.mp h
  rw [← pure_eq_ok.mp h]

end Stellar

inductive Confirmation where
  | confirmed
  | failed
  | waiting
deriving DecidableEq, Repr

def pollConfirmation (network : Network LedgerTx) (tx : LedgerTx) (deadline : Bool) : Confirmation :=
  match network.status tx with
  | .success => .confirmed
  | .failed => .failed
  | .notFound => if deadline then .failed else .waiting

theorem pollConfirmation_eq_confirmed {network : Network LedgerTx} {tx : LedgerTx} {deadline : Bool} :
    pollConfirmation network tx deadline = .confirmed ↔ tx ∈ network.landed := by
  unfold pollConfirmation Network.status
  by_cases hlanded : tx ∈ network.landed
  · simp [hlanded]
  · by_cases hfailed : tx ∈ network.failed
    · simp [hlanded, hfailed]
    · cases deadline <;> simp [hlanded, hfailed]

end CredBridge.Api
