import CredBridge.Contracts.Token
import CredBridge.Lib.Machine

/-! # The liquidity pool contract

Investors pay BRLT into the pool for shares and give shares back for BRLT; the operator buys receivables
with the pool's BRLT and later takes their principal off the books. Each entry point reads the pool's
stored state, calls the token contracts, and writes the state back; a trap undoes all of it. -/

namespace CredBridge.Contracts
open Result

namespace LiquidityPool

def priceScale : Int := 1000000000

inductive PoolError where
  | alreadyInitialized
  | notInitialized
  | unauthorized
  | paused
  | invalidAmount
  | invoiceAlreadyProcessed
  | invalidNav
  | insufficientPoolBalance
deriving DecidableEq, Repr

def PoolError.code : PoolError → Nat
  | .alreadyInitialized => 1
  | .notInitialized => 2
  | .unauthorized => 3
  | .paused => 4
  | .invalidAmount => 5
  | .invoiceAlreadyProcessed => 7
  | .invalidNav => 9
  | .insufficientPoolBalance => 11

def PoolError.trap (e : PoolError) : Trap := .contractError e.code

structure PoolState where
  admin : Address
  operator : Address
  assetAddress : Address
  shareTokenAddress : Address
  totalPrincipal : Int
  totalShares : Int
  paused : Bool
deriving DecidableEq, Repr

/-- The contract's storage: the flag and the state of the instance, and the invoice keys that are set. -/
structure Storage where
  initialized : Bool
  poolState : Option PoolState
  processedInvoice : List (BytesN 32)
deriving DecidableEq

structure DepositEvent where
  investor : Address
  amount : Int
  sharesMinted : Int
  navBefore : Int
  navAfter : Int
  sharePrice : Int
deriving DecidableEq

structure InvoicePurchasedEvent where
  invoiceHash : BytesN 32
  seller : Address
  advanceAmount : Int
  faceValue : Int
  rateBps : Int
  maturityTimestamp : Nat
  totalPrincipal : Int
deriving DecidableEq

inductive Event where
  | deposit (event : DepositEvent)
  | withdraw (investor : Address) (brltToReturn : Int)
  | tokenizedInvoicePurchased (event : InvoicePurchasedEvent)
  | invoiceSettledInPool (invoiceHash : BytesN 32) (principalToReduce : Int)
  | poolPaused (timestamp : Nat)
  | poolUnpaused (timestamp : Nat)
deriving DecidableEq

structure World (τ : Type) where
  storage : Storage
  tokens : τ
  events : List Event

def World.deployed {τ : Type} (tokens : τ) : World τ := ⟨⟨false, none, []⟩, tokens, []⟩

section Helpers
variable {τ : Type} (T : TokenContracts τ) (env : Env)

def loadState (s : Storage) : Except Trap PoolState := do
  throwIf (s.initialized = false) PoolError.notInitialized.trap
  orThrow s.poolState PoolError.notInitialized.trap

def saveState (s : Storage) (state : PoolState) : Storage := { s with poolState := some state }

def requireNotPaused (state : PoolState) : Except Trap Unit := throwIf (state.paused = true) PoolError.paused.trap

def requireAdmin (state : PoolState) (caller : Address) : Except Trap Unit :=
  throwIf (caller ≠ state.admin) PoolError.unauthorized.trap

def requireOperator (state : PoolState) (caller : Address) : Except Trap Unit :=
  throwIf (caller ≠ state.operator ∧ caller ≠ state.admin) PoolError.unauthorized.trap

def getTokenBalance (tokens : τ) (token : Address) : Int := T.balance tokens token env.currentContractAddress

def transferTokenToPool (tokens : τ) (token sender : Address) (amount : Int) : Except Trap τ :=
  T.transfer env.callAuth tokens token sender env.currentContractAddress amount

def transferTokenFromPool (tokens : τ) (token receiver : Address) (amount : Int) : Except Trap τ :=
  T.transfer env.callAuth tokens token env.currentContractAddress receiver amount

def mintShares (tokens : τ) (shareToken receiver : Address) (amount : Int) : Except Trap τ :=
  T.mint env.callAuth tokens shareToken env.currentContractAddress receiver amount

def burnShares (tokens : τ) (shareToken holder : Address) (amount : Int) : Except Trap τ :=
  T.burn env.callAuth tokens shareToken holder amount

end Helpers

section EntryPoints
variable {τ : Type} (T : TokenContracts τ) (env : Env) (w : World τ)

def initializePool (admin operator assetAddress shareTokenAddress : Address) : Except Trap (World τ) := do
  throwIf (w.storage.initialized = true) PoolError.alreadyInitialized.trap
  let state : PoolState :=
    { admin, operator, assetAddress, shareTokenAddress, totalPrincipal := 0, totalShares := 0, paused := false }
  pure { w with storage := { w.storage with poolState := some state, initialized := true } }

/-- The first deposit mints one share for each unit; a later one in proportion to the value before it. -/
def sharesToMint (state : PoolState) (navBefore amount : Int) : Except Trap Int :=
  if state.totalShares = 0 then
    pure amount
  else do
    throwIf (navBefore ≤ 0) PoolError.invalidNav.trap
    I128.div (← I128.mul amount state.totalShares) navBefore

def sharePriceAfter (navAfter totalShares : Int) : Except Trap Int :=
  if totalShares > 0 then do
    I128.div (← I128.mul navAfter priceScale) totalShares
  else
    pure priceScale

def deposit (investor : Address) (amount : Int) : Except Trap (World τ) := do
  requireAuth env.auth investor
  let state ← loadState w.storage
  requireNotPaused state
  throwIf (amount ≤ 0) PoolError.invalidAmount.trap
  let cashBalance := getTokenBalance T env w.tokens state.assetAddress
  let navBefore ← I128.add cashBalance state.totalPrincipal
  let tokens ← transferTokenToPool T env w.tokens state.assetAddress investor amount
  let sharesToMint ← sharesToMint state navBefore amount
  let tokens ← mintShares T env tokens state.shareTokenAddress investor sharesToMint
  let totalShares ← I128.add state.totalShares sharesToMint
  let state := { state with totalShares }
  let storage := saveState w.storage state
  let navAfter ← I128.add (← I128.add cashBalance amount) state.totalPrincipal
  let sharePrice ← sharePriceAfter navAfter state.totalShares
  let event := .deposit { investor, amount, sharesMinted := sharesToMint, navBefore, navAfter, sharePrice }
  pure { storage, tokens, events := w.events ++ [event] }

def withdraw (investor : Address) (sharesToBurn : Int) : Except Trap (World τ) := do
  requireAuth env.auth investor
  let state ← loadState w.storage
  requireNotPaused state
  throwIf (sharesToBurn ≤ 0) PoolError.invalidAmount.trap
  throwIf (sharesToBurn > state.totalShares) PoolError.invalidAmount.trap
  let cashBalance := getTokenBalance T env w.tokens state.assetAddress
  let nav ← I128.add cashBalance state.totalPrincipal
  throwIf (nav ≤ 0 ∨ state.totalShares ≤ 0) PoolError.invalidNav.trap
  let brltToReturn ← I128.div (← I128.mul sharesToBurn nav) state.totalShares
  throwIf (brltToReturn > cashBalance) PoolError.insufficientPoolBalance.trap
  let tokens ← burnShares T env w.tokens state.shareTokenAddress investor sharesToBurn
  let tokens ← transferTokenFromPool T env tokens state.assetAddress investor brltToReturn
  let totalShares ← I128.sub state.totalShares sharesToBurn
  let storage := saveState w.storage { state with totalShares }
  pure { storage, tokens, events := w.events ++ [.withdraw investor brltToReturn] }

def buyTokenizedInvoice (operator seller : Address) (invoiceHash : BytesN 32) (faceValue advanceAmount rateBps : Int)
    (maturityTimestamp : Nat) : Except Trap (World τ) := do
  requireAuth env.auth operator
  let state ← loadState w.storage
  requireNotPaused state
  requireOperator state operator
  throwIf (advanceAmount ≤ 0 ∨ faceValue ≤ 0) PoolError.invalidAmount.trap
  throwIf (advanceAmount > faceValue) PoolError.invalidAmount.trap
  throwIf (invoiceHash ∈ w.storage.processedInvoice) PoolError.invoiceAlreadyProcessed.trap
  let poolBalance := getTokenBalance T env w.tokens state.assetAddress
  throwIf (poolBalance < advanceAmount) PoolError.insufficientPoolBalance.trap
  let tokens ← transferTokenFromPool T env w.tokens state.assetAddress seller advanceAmount
  let totalPrincipal ← I128.add state.totalPrincipal advanceAmount
  let storage := { w.storage with processedInvoice := w.storage.processedInvoice ++ [invoiceHash] }
  let storage := saveState storage { state with totalPrincipal }
  let event := .tokenizedInvoicePurchased
    { invoiceHash, seller, advanceAmount, faceValue, rateBps, maturityTimestamp, totalPrincipal }
  pure { storage, tokens, events := w.events ++ [event] }

/-- The principal left after a settlement; a settlement of more than there is leaves none. -/
def principalAfter (totalPrincipal principalToReduce : Int) : Except Trap Int :=
  if principalToReduce > totalPrincipal then pure 0 else I128.sub totalPrincipal principalToReduce

def settleInvoiceInPool (operator : Address) (invoiceHash : BytesN 32) (principalToReduce : Int) :
    Except Trap (World τ) := do
  requireAuth env.auth operator
  let state ← loadState w.storage
  requireNotPaused state
  requireOperator state operator
  throwIf (principalToReduce ≤ 0) PoolError.invalidAmount.trap
  -- The hash is not looked up: whatever it names, the principal is taken off, down to zero.
  let totalPrincipal ← principalAfter state.totalPrincipal principalToReduce
  let storage := saveState w.storage { state with totalPrincipal }
  pure { w with storage, events := w.events ++ [.invoiceSettledInPool invoiceHash principalToReduce] }

def getNav : Except Trap Int := do
  let state ← loadState w.storage
  I128.add (getTokenBalance T env w.tokens state.assetAddress) state.totalPrincipal

def getSharePrice : Except Trap Int := do
  let state ← loadState w.storage
  if state.totalShares = 0 then
    pure priceScale
  else
    I128.div (← I128.mul (← getNav T env w) priceScale) state.totalShares

/-- `pause` and `unpause` differ in the flag they write and the event they publish. -/
def setPaused (admin : Address) (paused : Bool) (event : Nat → Event) : Except Trap (World τ) := do
  requireAuth env.auth admin
  let state ← loadState w.storage
  requireAdmin state admin
  pure { w with
    storage := saveState w.storage { state with paused }
    events := w.events ++ [event env.timestamp] }

def pause (admin : Address) : Except Trap (World τ) := setPaused env w admin true .poolPaused

def unpause (admin : Address) : Except Trap (World τ) := setPaused env w admin false .poolUnpaused

def setOperator (admin newOperator : Address) : Except Trap (World τ) := do
  requireAuth env.auth admin
  let state ← loadState w.storage
  requireAdmin state admin
  pure { w with storage := saveState w.storage { state with operator := newOperator } }

end EntryPoints

/-! ### Runs of the pool -/

inductive Call where
  | initializePool (admin operator assetAddress shareTokenAddress : Address)
  | deposit (investor : Address) (amount : Int)
  | withdraw (investor : Address) (sharesToBurn : Int)
  | buyTokenizedInvoice (operator seller : Address) (invoiceHash : BytesN 32)
      (faceValue advanceAmount rateBps : Int) (maturityTimestamp : Nat)
  | settleInvoiceInPool (operator : Address) (invoiceHash : BytesN 32) (principalToReduce : Int)
  | pause (admin : Address)
  | unpause (admin : Address)
  | setOperator (admin newOperator : Address)

structure Invocation where
  auth : Address → Bool
  timestamp : Nat
  call : Call

section Runs
variable {τ : Type} (T : TokenContracts τ) (self : Address)

def Invocation.env (inv : Invocation) : Env := ⟨self, inv.auth, inv.timestamp⟩

def invoke (w : World τ) (inv : Invocation) : Except Trap (World τ) :=
  match inv.call with
  | .initializePool admin operator asset share => initializePool w admin operator asset share
  | .deposit investor amount => deposit T (inv.env self) w investor amount
  | .withdraw investor shares => withdraw T (inv.env self) w investor shares
  | .buyTokenizedInvoice operator seller hash face advance rate maturity =>
    buyTokenizedInvoice T (inv.env self) w operator seller hash face advance rate maturity
  | .settleInvoiceInPool operator hash principal => settleInvoiceInPool (inv.env self) w operator hash principal
  | .pause admin => pause (inv.env self) w admin
  | .unpause admin => unpause (inv.env self) w admin
  | .setOperator admin operator => setOperator (inv.env self) w admin operator

end Runs

/-! ### The pool's accounts -/

namespace World
variable {τ : Type}

def state? (w : World τ) : Option PoolState := if w.storage.initialized then w.storage.poolState else none

def cash (T : TokenContracts τ) (self : Address) (w : World τ) (st : PoolState) : Int :=
  T.balance w.tokens st.assetAddress self

def nav (T : TokenContracts τ) (self : Address) (w : World τ) (st : PoolState) : Int :=
  w.cash T self st + st.totalPrincipal

end World

end LiquidityPool
end CredBridge.Contracts
