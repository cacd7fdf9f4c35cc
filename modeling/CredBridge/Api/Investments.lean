import CredBridge.Api.Assignment
import CredBridge.Api.FinancialAuthorizations

/-! # Purchases of receivables

An investor buys a receivable: one database transaction reads it and commits the investment, which is unique for
the receivable; after it, the authorization is consumed, the investor is charged, and the token goes to the investor.
The transaction reads before it commits, and other calls come between any two of these steps. A call that fails after
the commit undoes nothing. Beside the tables, the state keeps the journal of what was reserved, consumed and charged. -/

namespace CredBridge.Api
open Concurrent Result

def DISCOUNT_RATE : Rat := 3 / 100

structure CreateInvestmentDto where
  receivableId : String
  authorizationId : String
  pixTxId : Option String

structure Investment where
  id : String
  investorUserId : String
  receivableId : String
  amountPaid : Rat
  faceValue : Rat
  discountRate : Rat
  pixTxId : Option String
  paymentTxHash : Option String := none
  nftTransferTxHash : Option String := none
deriving DecidableEq

structure CustodialUser where
  googleId : Option String
  stellarWalletId : Option String
  privyStellarWalletAddress : Option String

structure CustodialWallet where
  publicKey : String
  /-- The platform has the key of the wallet. -/
  keypair : Bool

structure PurchaseEnv where
  configured : Bool
  walletSecret : Bool
  platformAddress : String
  /-- The address of the key that is derived from a seed. -/
  deriveKeypair : String → String
  /-- `x.toFixed(digits)` and `Number(text)`. -/
  toFixed : Rat → Nat → String
  number : String → Rat

structure Payment where
  source : String
  destination : String
  amount : String
  memo : String
deriving DecidableEq

structure NftTransfer where
  receivableKey : String
  newOwner : String
deriving DecidableEq

inductive PurchaseEvent where
  /-- With the receivable that the transaction read. -/
  | reserved (investment : Investment) (receivable : Receivable)
  | consumed (investment : Investment) (input : FinancialAuthorizationConsumption)
  /-- Whether the payment landed. -/
  | charged (investment : Investment) (landed : Bool)
deriving DecidableEq

structure PurchaseState where
  receivables : List Receivable
  investments : List Investment
  authorizations : AuthorizationStore
  payments : List Payment
  nftTransfers : List NftTransfer
  journal : List PurchaseEvent

inductive PurchaseRequest where
  | create (investorUserId : String) (dto : CreateInvestmentDto)
  /-- Another call writes an authorization. -/
  | authorization (w : AuthorizationWrite) (drawn : Drawn)

/-- Where a purchase waits. -/
inductive PurchaseCall where
  | reserve (investorUserId : String) (dto : CreateInvestmentDto) (receivable : Receivable)
  | authorize (authorizationId : String) (investment : Investment)
  | consume (input : FinancialAuthorizationConsumption) (investment : Investment)
  | charge (investment : Investment)
  | transferNft (investment : Investment) (paymentTxHash : String)
  | setHashes (investment : Investment) (paymentTxHash nftTransferTxHash : String)

/-- What a call gets from outside: a new identifier, the time, whether the database takes the write and the audit log its
    entry, whether the custodial wallet can be used, and what becomes of what is sent. -/
structure PurchaseReply where
  uuid : String := ""
  now : Int := 0
  committed : Bool := true
  audited : Bool := true
  funded : Bool := true
  accepted : Bool := true
  answered : Bool := true
  txHash : String := ""

section Purchases
variable (env : PurchaseEnv) (users : String → Option CustodialUser) (runtime : Runtime)

/-! ### The reservation -/

def checkPurchase (s : PurchaseState) (investorUserId : String) (dto : CreateInvestmentDto) : Except ApiError Receivable := do
  let receivable ← orThrow (Table.find Receivable.id dto.receivableId s.receivables) (.notFound "Recebível não encontrado")
  throwIf (s.investments.any fun i => i.receivableId = receivable.id) (.conflict "Recebível indisponível")
  throwIf (receivable.status ≠ .active) (.conflict "Recebível indisponível")
  throwIf (receivable.userId = investorUserId) (.badRequest "Você não pode comprar um recebível que cadastrou")
  pure receivable

def amountPaid (faceValue : Rat) : Rat := env.number (env.toFixed (faceValue * (1 - DISCOUNT_RATE)) 2)

def newInvestment (investorUserId : String) (dto : CreateInvestmentDto) (receivable : Receivable) (id : String) : Investment where
  id := id
  investorUserId := investorUserId
  receivableId := receivable.id
  amountPaid := amountPaid env receivable.value
  faceValue := receivable.value
  discountRate := DISCOUNT_RATE
  pixTxId := dto.pixTxId

def setReceivableActive (receivables : List Receivable) (id : String) : List Receivable :=
  Table.modify Receivable.id id (fun r => { r with status := .active }) receivables

/-- The writes of the transaction, all of them or none: the investment is unique by its identifier and by its receivable. -/
def reserve (investment : Investment) (receivable : Receivable) (s : PurchaseState) : Except ApiError PurchaseState := do
  throwIf (s.investments.any fun i => i.id = investment.id ∨ i.receivableId = investment.receivableId)
    (.conflict "Recebível indisponível")
  pure { s with
    receivables := setReceivableActive s.receivables receivable.id
    investments := s.investments ++ [investment]
    journal := .reserved investment receivable :: s.journal }

/-! ### What follows the reservation -/

def investmentConsumption (investment : Investment) (authorizationId : String) : FinancialAuthorizationConsumption where
  authorizationId := authorizationId
  userId := investment.investorUserId
  operation := .investmentPurchase
  resourceId := some investment.receivableId
  amount := some (env.toFixed investment.amountPaid 2)
  destination := none

/-- The conditional update has a row to write. -/
def AuthorizationStore.Consumes (s : AuthorizationStore) (input : FinancialAuthorizationConsumption) (now : Int) : Prop :=
  ((findAuthorization s input.authorizationId).filter (·.Consumable input now)).isSome

instance (s : AuthorizationStore) (input : FinancialAuthorizationConsumption) (now : Int) :
    Decidable (s.Consumes input now) := inferInstanceAs (Decidable (_ = true))

def requirePurchaseConfig : Except ApiError Unit :=
  throwIf (env.configured = false)
    (.error "Stellar contract not configured — set STELLAR_RPC_URL, STELLAR_SECRET_KEY, STELLAR_NFE_CONTRACT_ID")

def ensureCustodialWalletForUser (userId : String) (funded : Bool) : Except ApiError CustodialWallet := do
  throwIf (env.walletSecret = false) (.error "STELLAR_WALLET_SECRET not configured")
  let user ← orThrow (users userId) (.error ("User " ++ userId ++ " not found"))
  match user.privyStellarWalletAddress.filter (· ≠ "") with
  | some address => pure { publicKey := address, keypair := false }
  | none => do
    let publicKey := env.deriveKeypair (user.googleId.getD userId)
    throwIf (user.stellarWalletId.any fun wallet => wallet ≠ "" ∧ wallet ≠ publicKey)
      (.error ("Wallet mismatch for user " ++ userId ++ " — stored " ++ user.stellarWalletId.getD "" ++ " vs derived " ++
        publicKey))
    throwIf (funded = false) (.error ("Platform funding failed for custodial wallet " ++ publicKey))
    pure { publicKey, keypair := true }

/-- `chargeInvestor`, up to the transaction that it submits. -/
def chargeInvestor (investment : Investment) (funded : Bool) : Except ApiError Payment := do
  requirePurchaseConfig env
  let wallet ← ensureCustodialWalletForUser env users investment.investorUserId funded
  throwIf (wallet.keypair = false)
    (.error ("Investor " ++ investment.investorUserId ++ " uses a Privy wallet; payment must be signed by Privy"))
  pure
    { source := wallet.publicKey
      destination := env.platformAddress
      amount := env.toFixed investment.amountPaid 7
      memo := (investment.receivableId.take 28).toString }

/-- `transferNftToInvestor`, up to the transaction that it submits. -/
def transferNftToInvestor (investment : Investment) (funded : Bool) : Except ApiError NftTransfer := do
  requirePurchaseConfig env
  let wallet ← ensureCustodialWalletForUser env users investment.investorUserId funded
  pure { receivableKey := investment.receivableId, newOwner := wallet.publicKey }

def setBlockchainTxHashes (s : PurchaseState) (investmentId paymentTxHash nftTransferTxHash : String) : PurchaseState :=
  let hashed (i : Investment) := { i with paymentTxHash := some paymentTxHash, nftTransferTxHash := some nftTransferTxHash }
  { s with investments := Table.modify Investment.id investmentId hashed s.investments }

/-! ### The handler -/

def startPurchase (request : PurchaseRequest) (s : PurchaseState) : PurchaseState × Option PurchaseCall :=
  match request with
  | .create investorUserId dto => (s, (checkPurchase s investorUserId dto).toOption.map (.reserve investorUserId dto))
  | .authorization w drawn => ({ s with authorizations := w.apply runtime drawn s.authorizations }, none)

/-- A call that fails is over. -/
def resumePurchase (call : PurchaseCall) (reply : PurchaseReply) (s : PurchaseState) :
    PurchaseState × Option PurchaseCall :=
  match call with
  | .reserve investorUserId dto receivable =>
    let investment := newInvestment env investorUserId dto receivable reply.uuid
    match reserve investment receivable s with
    | .error _ => (s, none)
    | .ok s' => if reply.committed then (s', some (.authorize dto.authorizationId investment)) else (s, none)
  | .authorize authorizationId investment =>
    let input := investmentConsumption env investment authorizationId
    (s, (checkConsumable s.authorizations input reply.now).toOption.map fun _ => .consume input investment)
  | .consume input investment =>
    if s.authorizations.Consumes input reply.now then
      ({ s with
          authorizations := s.authorizations.setConsumed input reply.now
          journal := .consumed investment input :: s.journal },
        if reply.audited then some (.charge investment) else none)
    else (s, none)
  | .charge investment =>
    match chargeInvestor env users investment reply.funded with
    | .error _ => ({ s with journal := .charged investment false :: s.journal }, none)
    | .ok payment =>
      ({ s with
          payments := if reply.accepted then s.payments ++ [payment] else s.payments
          journal := .charged investment reply.accepted :: s.journal },
        if reply.accepted ∧ reply.answered then some (.transferNft investment reply.txHash) else none)
  | .transferNft investment paymentTxHash =>
    match transferNftToInvestor env users investment reply.funded with
    | .error _ => (s, none)
    | .ok transfer =>
      ({ s with nftTransfers := if reply.accepted then s.nftTransfers ++ [transfer] else s.nftTransfers },
        if reply.accepted ∧ reply.answered then some (.setHashes investment paymentTxHash reply.txHash) else none)
  | .setHashes investment paymentTxHash nftTransferTxHash =>
    (if reply.committed then setBlockchainTxHashes s investment.id paymentTxHash nftTransferTxHash else s, none)

def purchases : Handler PurchaseState PurchaseCall PurchaseRequest PurchaseReply where
  start := startPurchase runtime
  resume := resumePurchase env users

/-- What became of a purchase: a step of it was done, or it has failed and is over. -/
inductive PurchaseResumed (reply : PurchaseReply) (s : PurchaseState) (r : PurchaseState × Option PurchaseCall) :
    PurchaseCall → Prop where
  | reserved {investorUserId : String} {dto : CreateInvestmentDto} {receivable : Receivable} {s' : PurchaseState}
      (hreserve : reserve (newInvestment env investorUserId dto receivable reply.uuid) receivable s = .ok s')
      (hcommitted : reply.committed = true)
      (hr : r = (s', some (.authorize dto.authorizationId (newInvestment env investorUserId dto receivable reply.uuid)))) :
    PurchaseResumed reply s r (.reserve investorUserId dto receivable)
  | authorized {authorizationId : String} {investment : Investment}
      (hr : r = (s, some (.consume (investmentConsumption env investment authorizationId) investment))) :
    PurchaseResumed reply s r (.authorize authorizationId investment)
  | consumed {input : FinancialAuthorizationConsumption} {investment : Investment}
      (hconsumes : s.authorizations.Consumes input reply.now)
      (hr : r =
        ({ s with
            authorizations := s.authorizations.setConsumed input reply.now
            journal := .consumed investment input :: s.journal },
          if reply.audited then some (.charge investment) else none)) :
    PurchaseResumed reply s r (.consume input investment)
  | charged {investment : Investment} {payments : List Payment} {landed : Bool} {next : Option PurchaseCall}
      (hnext : ∀ call ∈ next, landed = true ∧ ∃ txHash, call = .transferNft investment txHash)
      (hr : r = ({ s with payments, journal := .charged investment landed :: s.journal }, next)) :
    PurchaseResumed reply s r (.charge investment)
  | transferred {investment : Investment} {paymentTxHash : String} {nftTransfers : List NftTransfer}
      {next : Option PurchaseCall} (hnext : ∀ call ∈ next, ∃ txHash, call = .setHashes investment paymentTxHash txHash)
      (hr : r = ({ s with nftTransfers }, next)) :
    PurchaseResumed reply s r (.transferNft investment paymentTxHash)
  | hashed {investment : Investment} {paymentTxHash nftTransferTxHash : String}
      (hr : r = (setBlockchainTxHashes s investment.id paymentTxHash nftTransferTxHash, none)) :
    PurchaseResumed reply s r (.setHashes investment paymentTxHash nftTransferTxHash)
  | failed {call : PurchaseCall} (hr : r = (s, none)) : PurchaseResumed reply s r call

theorem resumePurchase_resumed (call : PurchaseCall) (reply : PurchaseReply) (s : PurchaseState) :
    PurchaseResumed env reply s (resumePurchase env users call reply s) call := by
  cases call with
  | reserve investorUserId dto receivable =>
    simp only [resumePurchase]
    cases hreserve : reserve (newInvestment env investorUserId dto receivable reply.uuid) receivable s with
    | error e => exact .failed rfl
    | ok s' =>
      cases hcommitted : reply.committed with
      | false => exact .failed rfl
      | true => exact .reserved hreserve hcommitted rfl
  | authorize authorizationId investment =>
    simp only [resumePurchase]
    cases checkConsumable s.authorizations (investmentConsumption env investment authorizationId) reply.now with
    | error e => exact .failed rfl
    | ok authorization => exact .authorized rfl
  | consume input investment =>
    simp only [resumePurchase]
    split
    · next hconsumes => exact .consumed hconsumes rfl
    · exact .failed rfl
  | charge investment =>
    simp only [resumePurchase]
    cases chargeInvestor env users investment reply.funded with
    | error e => exact .charged (fun call hcall => absurd hcall (Option.not_mem_none call)) rfl
    | ok payment =>
      refine .charged (fun call hcall => ?_) rfl
      split at hcall
      · next hgoes =>
        cases hcall
        exact ⟨hgoes.1, reply.txHash, rfl⟩
      · cases hcall
  | transferNft investment paymentTxHash =>
    simp only [resumePurchase]
    cases transferNftToInvestor env users investment reply.funded with
    | error e => exact .failed rfl
    | ok transfer =>
      refine .transferred (fun call hcall => ?_) rfl
      split at hcall
      · cases hcall
        exact ⟨reply.txHash, rfl⟩
      · cases hcall
  | setHashes investment paymentTxHash nftTransferTxHash =>
    simp only [resumePurchase]
    split
    · exact .hashed rfl
    · exact .failed rfl

end Purchases
end CredBridge.Api
