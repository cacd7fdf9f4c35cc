import Mathlib
import CredBridge.Contracts.NonFungible
import CredBridge.Lib.Machine

/-! # The NF-e contract

Each tokenized NF-e has a record and a token. The record keeps the owner too, and a transfer that goes through the
contract's own entry point writes both; the ones of the token standard move the token alone. -/

namespace CredBridge.Contracts
open Result

namespace NfeTokenization

inductive NfeStatus where
  | active
  | listedForSale
  | soldToPool
  | settled
  | defaulted
  | cancelled
deriving DecidableEq, Repr

structure NfeData where
  key : String
  tokenId : Nat
  /-- In centavos. -/
  value : Int
  dueDate : Nat
  xmlHash : BytesN 32
  owner : Address
  status : NfeStatus
  invoiceHash : BytesN 32
  rateBps : Int
  advanceAmount : Int
deriving DecidableEq

structure SaleListingData where
  owner : Address
  faceValue : Int
  requestedAdvanceAmount : Int
  requestedRateBps : Int
  maturityTimestamp : Nat
  listedAt : Nat
deriving DecidableEq

inductive NfeError where
  | alreadyExists
  | notFound
  | notActive
  | alreadyListed
  | alreadySold
  | invalidStatus
  | invalidAmount
  | unauthorized
deriving DecidableEq, Repr

def NfeError.code : NfeError → Nat
  | .alreadyExists => 1
  | .notFound => 2
  | .notActive => 3
  | .alreadyListed => 4
  | .alreadySold => 5
  | .invalidStatus => 6
  | .invalidAmount => 7
  | .unauthorized => 8

def NfeError.trap (e : NfeError) : Trap := .contractError e.code

inductive Event where
  | invoiceTokenized (key : String) (owner : Address) (value : Int) (invoiceHash : BytesN 32)
  | transferOwnership (key : String) (oldOwner newOwner : Address)
  | invoiceListedForSale (key : String) (invoiceHash : BytesN 32) (owner : Address)
      (faceValue requestedAdvanceAmount requestedRateBps : Int) (maturityTimestamp : Nat)
  | invoiceSoldToPool (key : String) (invoiceHash : BytesN 32) (owner : Address) (value : Int)
  | settleNfe (key : String) (owner : Address)
deriving DecidableEq

/-- The contract's storage, one map for each kind of key. An entry that expires is archived, not deleted. -/
structure Storage where
  platform : Option Address
  nfe : AList fun _ : String => NfeData
  saleListing : AList fun _ : String => SaleListingData
  tokenToNfe : AList fun _ : Nat => String
  xmlHashToToken : AList fun _ : BytesN 32 => Nat

structure World (ν : Type) where
  storage : Storage
  tokens : ν
  events : List Event

section EntryPoints
variable {ν : Type} (N : NonFungible ν) (env : Env) (w : World ν)

def construct (tokens : ν) (platform : Address) : World ν := ⟨⟨some platform, ∅, ∅, ∅, ∅⟩, tokens, []⟩

def findNfe (key : String) : Option NfeData := w.storage.nfe.lookup key

def loadNfe (key : String) : Except Trap NfeData := orThrow (findNfe w key) NfeError.notFound.trap

def saveNfe (key : String) (nfeData : NfeData) : Storage :=
  { w.storage with nfe := w.storage.nfe.insert key nfeData }

def requirePlatform (platformAuth : Address) : Except Trap Unit := do
  let platform ← orThrow w.storage.platform NfeError.unauthorized.trap
  requireAuth env.auth platformAuth
  throwIf (platformAuth ≠ platform) NfeError.unauthorized.trap

def tokenizeNfe (key : String) (value : Int) (dueDate : Nat) (xmlHash : BytesN 32) (owner platformAuth : Address) :
    Except Trap (World ν) := do
  requirePlatform env w platformAuth
  throwIf (xmlHash ∈ w.storage.xmlHashToToken) NfeError.alreadyExists.trap
  throwIf ((findNfe w key).isSome) NfeError.alreadyExists.trap
  let (tokens, tokenId) ← N.sequentialMint w.tokens owner
  let nfeData : NfeData :=
    { key, tokenId, value, dueDate, xmlHash, owner, status := .active, invoiceHash := xmlHash, rateBps := 0,
      advanceAmount := 0 }
  let storage :=
    { saveNfe w key nfeData with
      tokenToNfe := w.storage.tokenToNfe.insert tokenId key
      xmlHashToToken := w.storage.xmlHashToToken.insert xmlHash tokenId }
  pure { storage, tokens, events := w.events ++ [.invoiceTokenized key owner value xmlHash] }

def getNfe (key : String) : Except Trap NfeData := loadNfe w key

def getNfeByTokenId (tokenId : Nat) : Except Trap NfeData := do
  let key ← orThrow (w.storage.tokenToNfe.lookup tokenId) NfeError.notFound.trap
  getNfe w key

def listInvoiceForSale (owner : Address) (key : String) (faceValue requestedAdvanceAmount requestedRateBps : Int)
    (maturityTimestamp : Nat) : Except Trap (World ν) := do
  requireAuth env.auth owner
  let nfeData ← loadNfe w key
  throwIf (nfeData.owner ≠ owner) NfeError.unauthorized.trap
  throwIf (nfeData.status ≠ .active) NfeError.invalidStatus.trap
  throwIf (faceValue ≤ 0 ∨ requestedAdvanceAmount ≤ 0) NfeError.invalidAmount.trap
  throwIf (requestedAdvanceAmount > faceValue) NfeError.invalidAmount.trap
  let storage := saveNfe w key
    { nfeData with status := .listedForSale, rateBps := requestedRateBps, advanceAmount := requestedAdvanceAmount }
  let listing : SaleListingData :=
    { owner, faceValue, requestedAdvanceAmount, requestedRateBps, maturityTimestamp, listedAt := env.timestamp }
  let saleListing := w.storage.saleListing.insert key listing
  let event := .invoiceListedForSale key nfeData.invoiceHash owner faceValue requestedAdvanceAmount requestedRateBps
    maturityTimestamp
  pure { w with storage := { storage with saleListing }, events := w.events ++ [event] }

def markAsSold (key : String) (platformAuth : Address) : Except Trap (World ν) := do
  requirePlatform env w platformAuth
  let nfeData ← loadNfe w key
  throwIf (nfeData.status ≠ .listedForSale) NfeError.invalidStatus.trap
  let storage := saveNfe w key { nfeData with status := .soldToPool }
  let event := .invoiceSoldToPool key nfeData.invoiceHash nfeData.owner nfeData.value
  pure { w with storage, events := w.events ++ [event] }

def transferOwnership (key : String) (newOwner : Address) : Except Trap (World ν) := do
  let nfeData ← loadNfe w key
  throwIf (nfeData.status ≠ .active) NfeError.notActive.trap
  -- The contract asks for nobody's authorisation itself; the library asks for the old owner's.
  let tokens ← N.transfer env.auth w.tokens nfeData.owner newOwner nfeData.tokenId
  let storage := saveNfe w key { nfeData with owner := newOwner }
  pure { storage, tokens, events := w.events ++ [.transferOwnership key nfeData.owner newOwner] }

def settleNfe (key : String) (platformAuth : Address) : Except Trap (World ν) := do
  requirePlatform env w platformAuth
  let nfeData ← loadNfe w key
  throwIf (nfeData.status ≠ .active ∧ nfeData.status ≠ .soldToPool) NfeError.notActive.trap
  let tokens ← N.burn env.auth w.tokens nfeData.owner nfeData.tokenId
  let storage := saveNfe w key { nfeData with status := .settled }
  pure { storage, tokens, events := w.events ++ [.settleNfe key nfeData.owner] }

def getSaleListing (key : String) : Except Trap SaleListingData :=
  orThrow (w.storage.saleListing.lookup key) NfeError.notFound.trap

/-- `transfer` of the token standard, which only the platform may call. -/
def transfer (sender receiver : Address) (tokenId : Nat) : Except Trap (World ν) := do
  let platform ← orThrow w.storage.platform NfeError.unauthorized.trap
  requireAuth env.auth platform
  let tokens ← N.transfer env.auth w.tokens sender receiver tokenId
  pure { w with tokens }

/-- The functions that the contract takes over from the library as they are. -/
def inherited (call : ν → Except Trap ν) : Except Trap (World ν) := do
  let tokens ← call w.tokens
  pure { w with tokens }

def transferFrom (spender sender receiver : Address) (tokenId : Nat) : Except Trap (World ν) :=
  inherited w (N.transferFrom env.auth · spender sender receiver tokenId)

def approve (approver approved : Address) (tokenId liveUntilLedger : Nat) : Except Trap (World ν) :=
  inherited w (N.approve env.auth · approver approved tokenId liveUntilLedger)

def approveForAll (owner operator : Address) (liveUntilLedger : Nat) : Except Trap (World ν) :=
  inherited w (N.approveForAll env.auth · owner operator liveUntilLedger)

def burn (holder : Address) (tokenId : Nat) : Except Trap (World ν) := inherited w (N.burn env.auth · holder tokenId)

def burnFrom (spender holder : Address) (tokenId : Nat) : Except Trap (World ν) :=
  inherited w (N.burnFrom env.auth · spender holder tokenId)

end EntryPoints

/-! ### Invocations -/

inductive Call where
  | tokenizeNfe (key : String) (value : Int) (dueDate : Nat) (xmlHash : BytesN 32) (owner platformAuth : Address)
  | listInvoiceForSale (owner : Address) (key : String) (faceValue requestedAdvanceAmount requestedRateBps : Int)
      (maturityTimestamp : Nat)
  | markAsSold (key : String) (platformAuth : Address)
  | transferOwnership (key : String) (newOwner : Address)
  | settleNfe (key : String) (platformAuth : Address)
  | transfer (sender receiver : Address) (tokenId : Nat)
  | transferFrom (spender sender receiver : Address) (tokenId : Nat)
  | approve (approver approved : Address) (tokenId liveUntilLedger : Nat)
  | approveForAll (owner operator : Address) (liveUntilLedger : Nat)
  | burn (holder : Address) (tokenId : Nat)
  | burnFrom (spender holder : Address) (tokenId : Nat)

section Invoke
variable {ν : Type} (N : NonFungible ν) (env : Env)

def invoke (w : World ν) : Call → Except Trap (World ν)
  | .tokenizeNfe key value dueDate xmlHash owner platformAuth =>
    tokenizeNfe N env w key value dueDate xmlHash owner platformAuth
  | .listInvoiceForSale owner key faceValue advance rateBps maturity =>
    listInvoiceForSale env w owner key faceValue advance rateBps maturity
  | .markAsSold key platformAuth => markAsSold env w key platformAuth
  | .transferOwnership key newOwner => transferOwnership N env w key newOwner
  | .settleNfe key platformAuth => settleNfe N env w key platformAuth
  | .transfer sender receiver tokenId => transfer N env w sender receiver tokenId
  | .transferFrom spender sender receiver tokenId => transferFrom N env w spender sender receiver tokenId
  | .approve approver approved tokenId liveUntilLedger => approve N env w approver approved tokenId liveUntilLedger
  | .approveForAll owner operator liveUntilLedger => approveForAll N env w owner operator liveUntilLedger
  | .burn holder tokenId => burn N env w holder tokenId
  | .burnFrom spender holder tokenId => burnFrom N env w spender holder tokenId

end Invoke

structure Invocation where
  env : Env
  call : Call

def step {ν : Type} (N : NonFungible ν) (w : World ν) (i : Invocation) : Except Trap (World ν) := invoke N i.env w i.call

def tokenOwner {ν : Type} (N : NonFungible ν) (w : World ν) (key : String) : Option Address :=
  (findNfe w key).bind fun nfeData => N.ownerOf w.tokens nfeData.tokenId

/-- A transfer of the ownership makes the new owner the token's, and was authorised by the old one. -/
theorem tokenOwner_transferOwnership {ν : Type} {N : NonFungible ν} (hN : N.Lawful) {env : Env} {w w' : World ν}
    {key : String} {newOwner : Address} (h : transferOwnership N env w key newOwner = .ok w') :
    tokenOwner N w' key = some newOwner ∧ ∀ owner ∈ tokenOwner N w key, env.auth owner = true := by
  obtain ⟨nfeData, hfind, h⟩ := orThrow_bind_eq_ok.mp h
  obtain ⟨-, h⟩ := throwIf_bind_eq_ok.mp h
  obtain ⟨tokens, htransfer, h⟩ := bind_eq_ok.mp h
  obtain ⟨hauth, howner, hmoves⟩ := hN.transfer htransfer
  cases pure_eq_ok.mp h
  constructor
  · unfold tokenOwner findNfe saveNfe
    rw [AList.lookup_insert]
    exact (hmoves nfeData.tokenId).trans (if_pos rfl)
  · intro owner hmem
    unfold tokenOwner at hmem
    rw [hfind] at hmem
    cases howner.symm.trans hmem
    exact hauth

end NfeTokenization
end CredBridge.Contracts
