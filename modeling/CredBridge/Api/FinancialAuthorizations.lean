import CredBridge.Lib.Concurrent
import CredBridge.Lib.Hex
import CredBridge.Lib.Json
import CredBridge.Lib.JsonText
import CredBridge.Lib.Table
import CredBridge.Lib.Utf

/-! # Financial authorizations

A user asks for a challenge, signs the hash of its payload with the wallet, and has the signature verified;
an operation then consumes the authorization. Each of the three reads the database and writes it later, and
other calls come between. A consumption writes under the conditions that it checked before. Beside the table,
the state keeps the journal of what was created, verified and consumed. -/

namespace CredBridge.Api
open Concurrent Result

inductive FinancialOperation where
  | receivableTokenize
  | receivableAssignment
  | pmeWithdrawal
  | investorDeposit
  | investmentPurchase
  | investorWithdrawal
deriving DecidableEq, Repr

def FinancialOperation.value : FinancialOperation → String
  | .receivableTokenize => "receivable.tokenize"
  | .receivableAssignment => "receivable.assignment"
  | .pmeWithdrawal => "pme.withdrawal"
  | .investorDeposit => "investor.deposit"
  | .investmentPurchase => "investment.purchase"
  | .investorWithdrawal => "investor.withdrawal"

def FINANCIAL_AUTH_DOMAIN : String := "credbridge.finance.authorization"
def FINANCIAL_AUTH_VERSION : String := "1"

def AUTH_TTL_MS : Int := 5 * 60 * 1000

structure FinancialAuthorizationPayload where
  domain : String
  version : String
  network : String
  operation : FinancialOperation
  userId : String
  walletId : String
  resourceId : Option String
  amount : Option String
  destination : Option String
  nonce : String
  expiresAt : String
deriving DecidableEq

structure CreateFinancialAuthorizationChallengeDto where
  operation : FinancialOperation
  resourceId : Option String
  amount : Option String
  destination : Option String

structure VerifyFinancialAuthorizationDto where
  authorizationId : String
  payloadHash : String
  assertion : Json

structure FinancialAuthorizationConsumption where
  authorizationId : String
  userId : String
  operation : FinancialOperation
  resourceId : Option String
  amount : Option String
  destination : Option String
deriving DecidableEq

inductive FinancialAuthorizationErrorCode where
  | walletRequired
  | authorizationRequired
  | authorizationExpired
  | authorizationInvalid
  | authorizationAlreadyUsed
  | authorizationOperationMismatch
  | authorizationResourceMismatch
deriving DecidableEq, Repr

def FinancialAuthorizationErrorCode.value : FinancialAuthorizationErrorCode → String
  | .walletRequired => "wallet_required"
  | .authorizationRequired => "authorization_required"
  | .authorizationExpired => "authorization_expired"
  | .authorizationInvalid => "authorization_invalid"
  | .authorizationAlreadyUsed => "authorization_already_used"
  | .authorizationOperationMismatch => "authorization_operation_mismatch"
  | .authorizationResourceMismatch => "authorization_resource_mismatch"

structure FinancialAuthorizationException where
  code : FinancialAuthorizationErrorCode
  message : String
deriving DecidableEq, Repr

structure WalletUser where
  privyStellarWalletAddress : Option String
  privyWalletStatus : Option String

/-- A row of the table. Dates are in milliseconds. -/
structure FinancialAuthorization where
  id : String
  userId : String
  walletId : String
  operation : FinancialOperation
  resourceId : Option String
  amount : Option String
  destination : Option String
  nonce : String
  payloadHash : String
  payload : FinancialAuthorizationPayload
  signature : Option Json := none
  expiresAt : Int
  verifiedAt : Option Int := none
  consumedAt : Option Int := none

structure Runtime where
  sha256 : List UInt8 → List UInt8
  /-- The ed25519 signature of a message verifies under the key of an address; none does if the address is no
      public key. -/
  verify : (address : String) → (message signature : List UInt8) → Bool
  toISOString : Int → String

structure Drawn where
  now : Int
  uuid : String

/-- What happened to authorizations. -/
inductive AuthorizationEvent where
  | created (id userId : String) (payload : FinancialAuthorizationPayload) (expiresAt : Int)
  | verified (id : String) (signature : List UInt8)
  | consumed (input : FinancialAuthorizationConsumption) (consumedAt : Int)
deriving DecidableEq

structure AuthorizationStore where
  authorizations : List FinancialAuthorization
  journal : List AuthorizationEvent

def AuthorizationStore.empty : AuthorizationStore := ⟨[], []⟩

def exception (code : FinancialAuthorizationErrorCode) (message : String) : FinancialAuthorizationException :=
  ⟨code, message⟩

/-! ### Payloads and signatures -/

def FinancialAuthorizationPayload.properties (p : FinancialAuthorizationPayload) : List (String × Option String) :=
  [("domain", some p.domain), ("version", some p.version), ("network", some p.network),
    ("operation", some p.operation.value), ("userId", some p.userId), ("walletId", some p.walletId),
    ("resourceId", p.resourceId), ("amount", p.amount), ("destination", p.destination), ("nonce", some p.nonce),
    ("expiresAt", some p.expiresAt)]

section Signatures
variable (runtime : Runtime)

def payloadDigest (payload : FinancialAuthorizationPayload) : List UInt8 :=
  runtime.sha256 (Utf.encodeChars (JsonText.stringify payload.properties))

def hashPayload (payload : FinancialAuthorizationPayload) : String :=
  String.ofList (Hex.encode (payloadDigest runtime payload))

def readHexBytes (value : String) (byteLength : Nat) : Except FinancialAuthorizationException (List UInt8) := do
  throwIf (¬(value ≠ "" ∧ value.toList.all Hex.isDigit ∧ value.length = byteLength * 2))
    (exception .authorizationInvalid "Privy signature is invalid")
  pure (Hex.decode value.toList)

def nonEmptyString (value : Option Json) : Option String :=
  match value with
  | some (.string s) => if s = "" then none else some s
  | _ => none

def readPrivyRawHashSignature (assertion : Json) (walletId : String) :
    Except FinancialAuthorizationException String := do
  let invalid := exception .authorizationInvalid "Privy signature is invalid"
  throwIf (¬(assertion.field? "type").any (Json.isString "privy_raw_hash")) invalid
  throwIf (¬(assertion.field? "address").any (Json.isString walletId)) invalid
  let signature ← orThrow (nonEmptyString (assertion.field? "signature")) invalid
  pure (if signature.startsWith "0x" then (signature.drop 2).toString else signature)

/-- The bytes of the signature that verified. -/
def verifyPrivyRawHashSignature (privyStellarWalletAddress : Option String) (walletId : String) (assertion : Json)
    (expectedPayloadHash : String) : Except FinancialAuthorizationException (List UInt8) := do
  throwIf (privyStellarWalletAddress.getD "" = "" ∨ privyStellarWalletAddress ≠ some walletId)
    (exception .authorizationInvalid "Privy signature is invalid")
  let signature ← readPrivyRawHashSignature assertion walletId
  let payloadHashBytes ← readHexBytes expectedPayloadHash 32
  let signatureBytes ← readHexBytes signature 64
  throwIf (runtime.verify walletId payloadHashBytes signatureBytes = false)
    (exception .authorizationInvalid "Privy signature verification failed")
  pure signatureBytes

end Signatures

/-! ### What the calls check -/

def readyWallet (user : Option WalletUser) : Except FinancialAuthorizationException String := do
  let required := exception .walletRequired "Privy Stellar wallet is required before this financial action"
  let user ← orThrow user required
  let wallet ← orThrow (user.privyStellarWalletAddress.filter (· ≠ "")) required
  throwIf (user.privyWalletStatus ≠ some "ready") required
  pure wallet

def findAuthorization (s : AuthorizationStore) (id : String) : Option FinancialAuthorization :=
  Table.find FinancialAuthorization.id id s.authorizations

def checkVerifiable (s : AuthorizationStore) (userId : String) (dto : VerifyFinancialAuthorizationDto) (now : Int) :
    Except FinancialAuthorizationException FinancialAuthorization := do
  let authorization ← orThrow ((findAuthorization s dto.authorizationId).filter (·.userId = userId))
    (exception .authorizationInvalid "Authorization not found")
  throwIf authorization.consumedAt.isSome (exception .authorizationAlreadyUsed "Authorization was already consumed")
  throwIf (authorization.expiresAt < now) (exception .authorizationExpired "Authorization expired")
  throwIf (authorization.payloadHash ≠ dto.payloadHash)
    (exception .authorizationInvalid "Authorization payload hash mismatch")
  pure authorization

def checkConsumable (s : AuthorizationStore) (input : FinancialAuthorizationConsumption) (now : Int) :
    Except FinancialAuthorizationException FinancialAuthorization := do
  let authorization ← orThrow ((findAuthorization s input.authorizationId).filter (·.userId = input.userId))
    (exception .authorizationRequired "Authorization required")
  throwIf authorization.verifiedAt.isNone
    (exception .authorizationRequired "Authorization must be verified before use")
  throwIf authorization.consumedAt.isSome (exception .authorizationAlreadyUsed "Authorization was already consumed")
  throwIf (authorization.expiresAt < now) (exception .authorizationExpired "Authorization expired")
  throwIf (authorization.operation ≠ input.operation)
    (exception .authorizationOperationMismatch "Authorization operation mismatch")
  throwIf (authorization.resourceId ≠ input.resourceId)
    (exception .authorizationResourceMismatch "Authorization resource mismatch")
  throwIf (authorization.amount ≠ input.amount)
    (exception .authorizationResourceMismatch "Authorization amount mismatch")
  throwIf (authorization.destination ≠ input.destination)
    (exception .authorizationResourceMismatch "Authorization destination mismatch")
  pure authorization

/-! ### Writes -/

/-- `create`: the identifier, the nonce and the hash of a payload are unique. -/
def AuthorizationStore.create (s : AuthorizationStore) (row : FinancialAuthorization) : AuthorizationStore :=
  if s.authorizations.any (fun r => r.id = row.id ∨ r.nonce = row.nonce ∨ r.payloadHash = row.payloadHash) then s
  else
    { authorizations := s.authorizations ++ [row]
      journal := .created row.id row.userId row.payload row.expiresAt :: s.journal }

/-- `update` of a row that was verified. Without the row, the call raises. -/
def AuthorizationStore.setVerified (s : AuthorizationStore) (id : String) (assertion : Json) (signature : List UInt8)
    (now : Int) : AuthorizationStore :=
  match findAuthorization s id with
  | none => s
  | some _ =>
    { authorizations := Table.modify FinancialAuthorization.id id
        (fun r => { r with signature := some assertion, verifiedAt := some now }) s.authorizations
      journal := .verified id signature :: s.journal }

/-- The conditions of the `updateMany` beside the identifier. -/
def FinancialAuthorization.Consumable (r : FinancialAuthorization) (input : FinancialAuthorizationConsumption)
    (now : Int) : Prop :=
  r.userId = input.userId ∧ r.operation = input.operation ∧ r.resourceId = input.resourceId ∧
    r.amount = input.amount ∧ r.destination = input.destination ∧ r.verifiedAt ≠ none ∧ r.consumedAt = none ∧
    now < r.expiresAt

instance (r : FinancialAuthorization) (input : FinancialAuthorizationConsumption) (now : Int) :
    Decidable (r.Consumable input now) :=
  inferInstanceAs (Decidable (_ ∧ _ ∧ _ ∧ _ ∧ _ ∧ _ ∧ _ ∧ _))

/-- `updateMany`: the row is checked and written at once. No row means that the call raises. -/
def AuthorizationStore.setConsumed (s : AuthorizationStore) (input : FinancialAuthorizationConsumption) (now : Int) :
    AuthorizationStore :=
  match (findAuthorization s input.authorizationId).filter (·.Consumable input now) with
  | none => s
  | some _ =>
    { authorizations := Table.modify FinancialAuthorization.id input.authorizationId
        (fun r => { r with consumedAt := some now }) s.authorizations
      journal := .consumed input now :: s.journal }

/-! ### Calls -/

inductive AuthorizationRequest where
  | createChallenge (userId : String) (dto : CreateFinancialAuthorizationChallengeDto) (user : Option WalletUser)
  | verify (userId : String) (dto : VerifyFinancialAuthorizationDto) (privyStellarWalletAddress : Option String)
  | consume (input : FinancialAuthorizationConsumption)

inductive AuthorizationWrite where
  | create (payload : FinancialAuthorizationPayload) (expiresAt : Int)
  | setVerified (id : String) (assertion : Json) (signature : List UInt8)
  | setConsumed (input : FinancialAuthorizationConsumption)

section Calls
variable (runtime : Runtime) (stellarNetwork : Option String)

def challengePayload (userId walletId : String) (dto : CreateFinancialAuthorizationChallengeDto) (nonce : String)
    (expiresAt : Int) : FinancialAuthorizationPayload where
  domain := FINANCIAL_AUTH_DOMAIN
  version := FINANCIAL_AUTH_VERSION
  network := stellarNetwork.getD "testnet"
  operation := dto.operation
  userId := userId
  walletId := walletId
  resourceId := dto.resourceId
  amount := dto.amount
  destination := dto.destination
  nonce := nonce
  expiresAt := runtime.toISOString expiresAt

def challengeRow (payload : FinancialAuthorizationPayload) (expiresAt : Int) (id : String) : FinancialAuthorization where
  id := id
  userId := payload.userId
  walletId := payload.walletId
  operation := payload.operation
  resourceId := payload.resourceId
  amount := payload.amount
  destination := payload.destination
  nonce := payload.nonce
  payloadHash := hashPayload runtime payload
  payload := payload
  expiresAt := expiresAt

def createChallenge (userId : String) (dto : CreateFinancialAuthorizationChallengeDto) (user : Option WalletUser)
    (drawn : Drawn) : Except FinancialAuthorizationException AuthorizationWrite := do
  let walletId ← readyWallet user
  let expiresAt := drawn.now + AUTH_TTL_MS
  pure (.create (challengePayload runtime stellarNetwork userId walletId dto drawn.uuid expiresAt) expiresAt)

def verify (s : AuthorizationStore) (userId : String) (dto : VerifyFinancialAuthorizationDto)
    (privyStellarWalletAddress : Option String) (drawn : Drawn) :
    Except FinancialAuthorizationException AuthorizationWrite := do
  let authorization ← checkVerifiable s userId dto drawn.now
  let signature ← verifyPrivyRawHashSignature runtime privyStellarWalletAddress authorization.walletId dto.assertion
    authorization.payloadHash
  pure (.setVerified authorization.id dto.assertion signature)

def consume (s : AuthorizationStore) (input : FinancialAuthorizationConsumption) (drawn : Drawn) :
    Except FinancialAuthorizationException AuthorizationWrite := do
  let _ ← checkConsumable s input drawn.now
  pure (.setConsumed input)

/-- What a call reads and checks, up to its write. -/
def prepare (s : AuthorizationStore) (drawn : Drawn) :
    AuthorizationRequest → Except FinancialAuthorizationException AuthorizationWrite
  | .createChallenge userId dto user => createChallenge runtime stellarNetwork userId dto user drawn
  | .verify userId dto wallet => verify runtime s userId dto wallet drawn
  | .consume input => consume s input drawn

def AuthorizationWrite.apply (w : AuthorizationWrite) (drawn : Drawn) (s : AuthorizationStore) : AuthorizationStore :=
  match w with
  | .create payload expiresAt => s.create (challengeRow runtime payload expiresAt drawn.uuid)
  | .setVerified id assertion signature => s.setVerified id assertion signature drawn.now
  | .setConsumed input => s.setConsumed input drawn.now

def financialAuthorizations :
    Handler AuthorizationStore AuthorizationWrite (AuthorizationRequest × Drawn) Drawn where
  start call s := (s, (prepare runtime stellarNetwork s call.2 call.1).toOption)
  resume w drawn s := (w.apply runtime drawn s, none)

end Calls
end CredBridge.Api
