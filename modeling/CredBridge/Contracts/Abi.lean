import CredBridge.Contracts.Ledger
import CredBridge.Lib.Abi

/-! # The interfaces of the contracts

The functions that the API invokes, by their contract and their name, with the types of their parameters. A function that
its host calls with a vector takes the vector as one of its calls, or traps. -/

namespace CredBridge.Contracts
open Abi

inductive ContractName where
  | nfeTokenization
  | liquidityPool
  | brlt
deriving DecidableEq, Repr

inductive Function where
  | tokenizeNfe
  | transferOwnership
  | buyTokenizedInvoice
  | settleInvoiceInPool
  | deposit
  | withdraw
  | mint
  | burn
  | approve
deriving DecidableEq, Repr

def Function.contract : Function → ContractName
  | .tokenizeNfe | .transferOwnership => .nfeTokenization
  | .buyTokenizedInvoice | .settleInvoiceInPool | .deposit | .withdraw => .liquidityPool
  | .mint | .burn | .approve => .brlt

def Function.name : Function → String
  | .tokenizeNfe => "tokenize_nfe"
  | .transferOwnership => "transfer_ownership"
  | .buyTokenizedInvoice => "buy_tokenized_invoice"
  | .settleInvoiceInPool => "settle_invoice_in_pool"
  | .deposit => "deposit"
  | .withdraw => "withdraw"
  | .mint => "mint"
  | .burn => "burn"
  | .approve => "approve"

def Function.all : List Function :=
  [.tokenizeNfe, .transferOwnership, .buyTokenizedInvoice, .settleInvoiceInPool, .deposit, .withdraw, .mint, .burn, .approve]

def Function.params : Function → List Ty
  -- key, value, due_date, xml_hash, owner, platform_auth
  | .tokenizeNfe => [.string, .i128, .u64, .bytesN 32, .address, .address]
  -- key, new_owner
  | .transferOwnership => [.string, .address]
  -- operator, seller, invoice_hash, face_value, advance_amount, rate_bps, maturity_timestamp
  | .buyTokenizedInvoice => [.address, .address, .bytesN 32, .i128, .i128, .i128, .u64]
  -- operator, invoice_hash, principal_to_reduce
  | .settleInvoiceInPool => [.address, .bytesN 32, .i128]
  -- investor, amount
  | .deposit => [.address, .i128]
  -- investor, shares_to_burn
  | .withdraw => [.address, .i128]
  -- admin, to, amount
  | .mint => [.address, .address, .i128]
  -- from, amount
  | .burn => [.address, .i128]
  -- owner, spender, amount, live_until_ledger
  | .approve => [.address, .address, .i128, .u32]

/-- A call with the values that the function's parameters are bound to. -/
inductive TypedCall where
  | tokenizeNfe (key : String) (value : I128) (dueDate : U64) (xmlHash : BytesN 32) (owner platformAuth : Address)
  | transferOwnership (key : String) (newOwner : Address)
  | buyTokenizedInvoice (operator seller : Address) (invoiceHash : BytesN 32) (faceValue advanceAmount rateBps : I128)
      (maturityTimestamp : U64)
  | settleInvoiceInPool (operator : Address) (invoiceHash : BytesN 32) (principalToReduce : I128)
  | deposit (investor : Address) (amount : I128)
  | withdraw (investor : Address) (sharesToBurn : I128)
  | mint (admin receiver : Address) (amount : I128)
  | burn (holder : Address) (amount : I128)
  | approve (owner spender : Address) (amount : I128) (liveUntilLedger : U32)

/-- The call of a function with its arguments. -/
def Function.call : (f : Function) → Args Address f.params → TypedCall
  | .tokenizeNfe, (key, value, dueDate, xmlHash, owner, platformAuth, ()) =>
    .tokenizeNfe key value dueDate xmlHash owner platformAuth
  | .transferOwnership, (key, newOwner, ()) => .transferOwnership key newOwner
  | .buyTokenizedInvoice, (operator, seller, invoiceHash, faceValue, advanceAmount, rateBps, maturityTimestamp, ()) =>
    .buyTokenizedInvoice operator seller invoiceHash faceValue advanceAmount rateBps maturityTimestamp
  | .settleInvoiceInPool, (operator, invoiceHash, principalToReduce, ()) =>
    .settleInvoiceInPool operator invoiceHash principalToReduce
  | .deposit, (investor, amount, ()) => .deposit investor amount
  | .withdraw, (investor, sharesToBurn, ()) => .withdraw investor sharesToBurn
  | .mint, (admin, receiver, amount, ()) => .mint admin receiver amount
  | .burn, (holder, amount, ()) => .burn holder amount
  | .approve, (owner, spender, amount, liveUntilLedger, ()) => .approve owner spender amount liveUntilLedger

def TypedCall.function : TypedCall → Function
  | .tokenizeNfe .. => .tokenizeNfe
  | .transferOwnership .. => .transferOwnership
  | .buyTokenizedInvoice .. => .buyTokenizedInvoice
  | .settleInvoiceInPool .. => .settleInvoiceInPool
  | .deposit .. => .deposit
  | .withdraw .. => .withdraw
  | .mint .. => .mint
  | .burn .. => .burn
  | .approve .. => .approve

def TypedCall.args : (call : TypedCall) → Args Address call.function.params
  | .tokenizeNfe key value dueDate xmlHash owner platformAuth => (key, value, dueDate, xmlHash, owner, platformAuth, ())
  | .transferOwnership key newOwner => (key, newOwner, ())
  | .buyTokenizedInvoice operator seller invoiceHash faceValue advanceAmount rateBps maturityTimestamp =>
    (operator, seller, invoiceHash, faceValue, advanceAmount, rateBps, maturityTimestamp, ())
  | .settleInvoiceInPool operator invoiceHash principalToReduce => (operator, invoiceHash, principalToReduce, ())
  | .deposit investor amount => (investor, amount, ())
  | .withdraw investor sharesToBurn => (investor, sharesToBurn, ())
  | .mint admin receiver amount => (admin, receiver, amount, ())
  | .burn holder amount => (holder, amount, ())
  | .approve owner spender amount liveUntilLedger => (owner, spender, amount, liveUntilLedger, ())

/-- The call on the ledger. The BRLT token is at `brlt`; an allowance is not noticed there. -/
def TypedCall.contractCall (brlt : Address) : TypedCall → ContractCall
  | .tokenizeNfe key value dueDate xmlHash owner platformAuth =>
    .nfe (.tokenizeNfe key value dueDate xmlHash owner platformAuth)
  | .transferOwnership key newOwner => .nfe (.transferOwnership key newOwner)
  | .buyTokenizedInvoice operator seller invoiceHash faceValue advanceAmount rateBps maturityTimestamp =>
    .pool (.buyTokenizedInvoice operator seller invoiceHash faceValue advanceAmount rateBps maturityTimestamp)
  | .settleInvoiceInPool operator invoiceHash principalToReduce =>
    .pool (.settleInvoiceInPool operator invoiceHash principalToReduce)
  | .deposit investor amount => .pool (.deposit investor amount)
  | .withdraw investor sharesToBurn => .pool (.withdraw investor sharesToBurn)
  | .mint admin receiver amount => .tokenMint brlt admin receiver amount
  | .burn holder amount => .tokenBurn brlt holder amount
  | .approve .. => .other

/-- An invocation as a transaction has it. -/
structure VectorCall where
  contract : ContractName
  method : String
  args : List (Val Address)

def Function.find (contract : ContractName) (method : String) : Option Function :=
  Function.all.find? fun f => f.contract = contract ∧ f.name = method

/-- What the host makes of an invocation; it traps on one that no function takes. -/
def VectorCall.dispatch (v : VectorCall) : Option TypedCall := do
  let f ← Function.find v.contract v.method
  let args ← decodeArgs f.params v.args
  pure (f.call args)

def TypedCall.vector (call : TypedCall) : VectorCall where
  contract := call.function.contract
  method := call.function.name
  args := encodeArgs call.function.params call.args

theorem find_function (f : Function) : Function.find f.contract f.name = some f := by
  cases f <;> rfl

theorem find_eq_some {contract : ContractName} {method : String} {f : Function}
    (h : Function.find contract method = some f) : f.contract = contract ∧ f.name = method := by
  simpa using List.find?_some h

theorem call_args (call : TypedCall) : call.function.call call.args = call := by
  cases call <;> rfl

theorem vector_call (f : Function) (args : Args Address f.params) :
    (f.call args).vector = ⟨f.contract, f.name, encodeArgs f.params args⟩ := by
  cases f <;> rfl

theorem dispatch_function (f : Function) (args : List (Val Address)) :
    VectorCall.dispatch ⟨f.contract, f.name, args⟩ = (decodeArgs f.params args).map f.call := by
  unfold VectorCall.dispatch
  simp only [find_function, Option.bind_eq_bind, Option.bind_some]
  cases decodeArgs f.params args <;> rfl

theorem dispatch_vector (call : TypedCall) : call.vector.dispatch = some call := by
  have hargs : decodeArgs call.function.params (encodeArgs call.function.params call.args) = some call.args :=
    decodeArgs_encodeArgs call.function.params call.args
  unfold TypedCall.vector
  rw [dispatch_function, hargs, Option.map_some, call_args]

/-- The host takes an invocation as a call exactly if it is the vector of that call. -/
theorem dispatch_eq_some {v : VectorCall} {call : TypedCall} : v.dispatch = some call ↔ v = call.vector := by
  constructor
  · intro h
    obtain ⟨f, hfind, h⟩ := Option.bind_eq_some_iff.mp h
    obtain ⟨args, hargs, h⟩ := Option.bind_eq_some_iff.mp h
    obtain rfl := Option.some.inj h
    obtain ⟨hcontract, hname⟩ := find_eq_some hfind
    rw [vector_call, hcontract, hname, ← decodeArgs_eq_some.mp hargs]
  · rintro rfl
    exact dispatch_vector call

end CredBridge.Contracts
