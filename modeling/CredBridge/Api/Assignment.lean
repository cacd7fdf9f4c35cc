import CredBridge.Api.Stellar
import CredBridge.Contracts.Ledger
import CredBridge.Lib.Hex
import CredBridge.Lib.Table
import CredBridge.Lib.Utf

/-! # Assignment of a receivable

The owner of a receivable signs a transaction, the API sends it, and when it is confirmed the platform has the pool
buy the receivable. The two transactions are separate ones, and what the first does is not looked at. -/

namespace CredBridge.Api
open Contracts Result Submission

inductive ReceivableStatus where
  | pending
  | validated
  | tokenized
  | assignmentPending
  | active
  | other (value : String)
deriving DecidableEq, Repr

structure Receivable where
  id : String
  userId : String
  value : Rat
  status : ReceivableStatus
  debtorName : String
  debtorDocument : String
  documentHash : Option String
  dueDate : Int
deriving DecidableEq

structure CollectionOrder where
  receivableId : String
  pmeUserId : String
  debtorName : String
  debtorDocument : String
  amount : Rat
  dueDate : Int
deriving DecidableEq

/-- A transaction as its XDR has it; `calls.auth` is who authorises it once the signature of the client is on it. -/
structure SignedTx where
  hash : String
  calls : LedgerCalls

structure AssignmentEnv where
  configured : Bool
  poolContractConfigured : Bool
  platformAddress : Address
  /-- The address that a text denotes; a text that denotes none has no signatures. -/
  address : String → Address
  fromXDR : String → Option SignedTx
  verify : (address hash : String) → (signature : List UInt8) → Bool
  stroops : Rat → Int

/-- A purchase by the pool that landed, with the receivable that the API made it for. -/
structure Purchase where
  receivableId : String
  seller : Address
deriving DecidableEq

structure Chain (τ ν : Type) where
  ledger : Ledger τ ν
  purchases : List Purchase

structure AssignmentState (τ ν : Type) where
  receivables : List Receivable
  chain : Chain τ ν
  collectionOrders : List CollectionOrder

/-- What the call gets from outside: what becomes of its two transactions, when they are included, what the errors say,
    and whether the database, the Pix service and the audit log answer. -/
structure AssignmentAnswers where
  assignment : Fate
  assignmentTime : Nat
  assignmentError : String
  purchase : Fate
  purchaseTime : Nat
  purchaseError : String
  setActive : Bool
  createCollectionOrder : Bool
  audit : Bool

/-- Where the call leaves the state, the chain after a transaction of it that lands later, and what it returns or
    throws. -/
structure Ended (τ ν : Type) where
  state : AssignmentState τ ν
  later : Option (Chain τ ν)
  result : Except ApiError Receivable

structure CheckedAssignment where
  receivable : Receivable
  wallet : String
  tx : SignedTx

section Stellar
variable (env : AssignmentEnv)

/-- `text.replace(/^0x/, '')`, in UTF-16 units. -/
def dropHexMark : List Nat → List Nat
  | 0x30 :: 0x78 :: rest => rest
  | units => units

/-- `hexHash.replace(/^0x/, '').padEnd(64, '0').slice(0, 64)`, as bytes. -/
def toBytes32 (hexHash : String) : List UInt8 :=
  if hexHash = "" then List.replicate 32 0
  else
    let clean := dropHexMark (Utf.utf16 hexHash.toList)
    Hex.decodeUnits ((clean ++ List.replicate (64 - clean.length) 0x30).take 64)

def bytesN32 (bytes : List UInt8) : Option (BytesN 32) :=
  if h : bytes.toArray.size = 32 then some ⟨bytes.toArray, h⟩ else none

def cleanSignature (signatureHex : String) : List UInt8 :=
  (Hex.decodeUnits (dropHexMark (Utf.utf16 signatureHex.toList))).take 64

def requireAssignmentConfig : Except ApiError Unit :=
  throwIf (env.configured = false)
    (.error "Stellar contract not configured — set STELLAR_RPC_URL, STELLAR_SECRET_KEY, STELLAR_NFE_CONTRACT_ID")

def prepareAssignment (receivableKey : String) : ContractCall := .nfe (.transferOwnership receivableKey env.platformAddress)

/-- `submitSignedAssignment`, up to where it sends the transaction. -/
def submitSignedAssignment (unsignedXdr signatureHex pmeAddress : String) : Except ApiError SignedTx := do
  requireAssignmentConfig env
  let innerTx ← orThrow (env.fromXDR unsignedXdr) (.error "invalid XDR")
  throwIf (env.verify pmeAddress innerTx.hash (cleanSignature signatureHex) = false) (.error "Invalid signature")
  pure innerTx

/-- `buyTokenizedInvoiceInPool`, up to where the transaction is simulated. -/
def buyTokenizedInvoiceInPool (sellerAddress xmlHash : String) (value : Rat) : Except ApiError LedgerCalls := do
  requireAssignmentConfig env
  throwIf (env.poolContractConfigured = false) (.error "STELLAR_POOL_CONTRACT_ID not configured")
  let invoiceHash ← orThrow (bytesN32 (toBytes32 xmlHash)) (.error "Soroban simulation failed [buy_tokenized_invoice]")
  pure
    { calls := [.pool (.buyTokenizedInvoice env.platformAddress (env.address sellerAddress) invoiceHash
        (env.stroops value) (env.stroops value) 100 1800000000)]
      auth := fun a => a = env.platformAddress }

end Stellar

section Assignment
variable {τ ν : Type} (env : AssignmentEnv) (D : LedgerContracts τ ν) (users : String → Option UserWallets)
  (answers : AssignmentAnswers)

def checkAssignment (s : AssignmentState τ ν) (id unsignedXdr signatureHex : String) : Except ApiError CheckedAssignment := do
  let receivable ← orThrow (Table.find Receivable.id id s.receivables) (.notFound ("Receivable " ++ id ++ " not found"))
  throwIf (receivable.status ≠ .tokenized ∧ receivable.status ≠ .assignmentPending)
    (.conflict "Receivable must be tokenized before assignment")
  let wallet ← orThrow ((users receivable.userId).bind fun user => user.privyStellarWalletAddress.filter (· ≠ ""))
    (.notFound ("Stellar privy wallet for user " ++ receivable.userId ++ " not found"))
  let tx ← submitSignedAssignment env unsignedXdr signatureHex wallet
  pure { receivable, wallet, tx }

def landAssignment (chain : Chain τ ν) (tx : SignedTx) : Landing (Chain τ ν) :=
  land ((chain.ledger.execute D answers.assignmentTime tx.calls).map fun ledger => { chain with ledger })
    answers.assignment

def purchaseCalls (p : CheckedAssignment) : Except ApiError LedgerCalls :=
  buyTokenizedInvoiceInPool env p.wallet (p.receivable.documentHash.getD "00000000000000000000000000000000")
    p.receivable.value

def landPurchase (chain : Chain τ ν) (p : CheckedAssignment) (purchase : LedgerCalls) : Landing (Chain τ ν) :=
  land ((chain.ledger.execute D answers.purchaseTime purchase).map fun ledger =>
    { ledger, purchases := chain.purchases ++ [⟨p.receivable.id, env.address p.wallet⟩] }) answers.purchase

def payoutFailed (message : String) : ApiError :=
  .conflict ("Failed to complete financial transfer from Pool: " ++ message ++
    ". Certifique-se de que a Pool possui liquidez suficiente de aportes.")

def setActive (receivables : List Receivable) (id : String) : List Receivable :=
  Table.modify Receivable.id id (fun r => { r with status := .active }) receivables

def collectionOrder (r : Receivable) : CollectionOrder :=
  ⟨r.id, r.userId, r.debtorName, r.debtorDocument, r.value, r.dueDate⟩

/-- After the payout: a collection order that fails is logged only. -/
def completeAssignment (s : AssignmentState τ ν) (p : CheckedAssignment) : Ended τ ν :=
  if answers.setActive = false then ⟨s, none, .error (.error "update failed")⟩
  else
    let s := { s with
      receivables := setActive s.receivables p.receivable.id
      collectionOrders :=
        if answers.createCollectionOrder then s.collectionOrders ++ [collectionOrder p.receivable] else s.collectionOrders }
    ⟨s, none, if answers.audit then .ok { p.receivable with status := .active } else .error (.error "audit failed")⟩

def payout (s : AssignmentState τ ν) (p : CheckedAssignment) : Ended τ ν :=
  match purchaseCalls env p with
  | .error e => ⟨s, none, .error (payoutFailed e.message)⟩
  | .ok purchase =>
    match landPurchase env D answers s.chain p purchase with
    | .never => ⟨s, none, .error (payoutFailed answers.purchaseError)⟩
    | .late chain => ⟨s, some chain, .error (payoutFailed answers.purchaseError)⟩
    | .inTime chain => completeAssignment answers { s with chain } p

def submitAssignment (s : AssignmentState τ ν) (id unsignedXdr signatureHex : String) : Ended τ ν :=
  match checkAssignment env users s id unsignedXdr signatureHex with
  | .error e => ⟨s, none, .error e⟩
  | .ok p =>
    match landAssignment D answers s.chain p.tx with
    | .never => ⟨s, none, .error (.error answers.assignmentError)⟩
    | .late chain => ⟨s, some chain, .error (.error answers.assignmentError)⟩
    | .inTime chain => payout env D answers { s with chain } p

end Assignment
end CredBridge.Api
