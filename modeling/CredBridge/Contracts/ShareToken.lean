import CredBridge.Contracts.MockBrlt
import CredBridge.Contracts.PoolEffects

/-! # The pool and its share token

The pool's shares are a token like the BRLT, with the pool as its admin, and the token is a contract of its
own: besides the calls that the pool makes, anyone may invoke it. Its public entry points are those of
`MockBrltToken` and, from the library's `FungibleToken`, the transfers and the allowances. -/

namespace CredBridge.Contracts
open Result

/-! ### The token's entry points -/

inductive MockBrltCall where
  | initializeToken (admin : Address) (name symbol : String) (decimals : Nat)
  | mint (admin receiver : Address) (amount : Int)
  | burn (holder : Address) (amount : Int)
  | transfer (sender receiver : Address) (amount : Int)
  | transferFrom (spender sender receiver : Address) (amount : Int)
  | approve (owner spender : Address) (amount : Int) (liveUntilLedger : Nat)

/-- What a direct call takes off the balances. -/
def MockBrltCall.burned : MockBrltCall → Int
  | .burn _ amount => amount
  | _ => 0

namespace MockBrltToken
variable {β : Type} (F : Fungible β)

/-- `auth` is who authorises the invocation. -/
def invoke (auth : Address → Bool) (info : LedgerInfo) (s : MockBrltToken β) :
    MockBrltCall → Except Trap (MockBrltToken β)
  | .initializeToken admin name symbol decimals => s.initializeToken F admin name symbol decimals
  | .mint admin receiver amount => s.mint F auth admin receiver amount
  | .burn holder amount => s.burn F auth holder amount
  | .transfer sender receiver amount => s.transfer F auth sender receiver amount
  | .transferFrom spender sender receiver amount => do
    let base ← F.transferFrom auth info s.base spender sender receiver amount
    pure { s with base }
  | .approve owner spender amount liveUntilLedger => do
    let base ← F.approve auth info s.base owner spender amount liveUntilLedger
    pure { s with base }

end MockBrltToken

/-! ### The two contracts together -/

/-- The pool with the token contracts at their addresses. -/
abbrev PoolAndTokens (β : Type) := LiquidityPool.World (BrltContracts β)

inductive PublicCall where
  | pool (inv : LiquidityPool.Invocation)
  | token (auth : Address → Bool) (info : LedgerInfo) (token : Address) (call : MockBrltCall)

/-- What a call from outside burns of a token. -/
def PublicCall.burned (token : Address) : PublicCall → Int
  | .token _ _ t call => if t = token then call.burned else 0
  | .pool _ => 0

/-- Who can authorise an invocation from outside: a contract authorises only the calls that it makes itself. -/
def outside (pool : Address) (auth : Address → Bool) : Address → Bool := fun a => decide (a ≠ pool) && auth a

namespace PoolAndTokens
variable {β : Type} (F : Fungible β)

def deployed : PoolAndTokens β := LiquidityPool.World.deployed fun _ => .new F

def step (pool : Address) (s : PoolAndTokens β) : PublicCall → Except Trap (PoolAndTokens β)
  | .pool inv => LiquidityPool.invoke (brltContracts F) pool s { inv with auth := outside pool inv.auth }
  | .token auth info token call => do
    let tokens ← s.tokens.at token (·.invoke F (outside pool auth) info call)
    pure { s with tokens }

end PoolAndTokens

/-! ### What a call does to the sum of the balances -/

namespace MockBrltToken
variable {β : Type} {F : Fungible β} {s s' t u : MockBrltToken β} {d e : Int}

def total (F : Fungible β) (s : MockBrltToken β) : Int := (F.balances s.base).total

/-- The token keeps its admin, and the sum of its balances changes by `delta`. -/
structure Sums (F : Fungible β) (s s' : MockBrltToken β) (delta : Int) : Prop where
  admin : s'.admin = s.admin
  initialized : s'.initialized = s.initialized
  total : s'.total F = s.total F + delta
  nonneg : (F.balances s.base).Nonneg → (F.balances s'.base).Nonneg

theorem Sums.refl (s : MockBrltToken β) : s.Sums F s 0 := ⟨rfl, rfl, (Int.add_zero _).symm, id⟩

theorem Sums.trans (h : s.Sums F t d) (h' : t.Sums F u e) : s.Sums F u (d + e) where
  admin := h'.admin.trans h.admin
  initialized := h'.initialized.trans h.initialized
  total := by rw [h'.total, h.total, Int.add_assoc]
  nonneg hs := h'.nonneg (h.nonneg hs)

theorem Moves.sums {sender receiver : Option Address} {amount : Int} (h : s.Moves F s' sender receiver amount) :
    s.Sums F s' (Fungible.movedOf receiver amount - Fungible.movedOf sender amount) :=
  ⟨h.admin, h.initialized, h.base.total, h.base.nonneg_balances⟩

theorem Sums.of_balance (hadmin : s'.admin = s.admin) (hinitialized : s'.initialized = s.initialized)
    (hbalance : ∀ a, F.balance s'.base a = F.balance s.base a) : s.Sums F s' 0 := by
  refine ⟨hadmin, hinitialized, ?_, fun hs a => ?_⟩
  · rw [Int.add_zero]
    exact Tally.total_congr hbalance
  · have ha : (F.balances s'.base).get a = _ := hbalance a
    rw [ha]
    exact hs a

variable {auth : Address → Bool} {sender receiver admin holder : Address} {amount : Int}

theorem transfer_sums (hF : F.Lawful) (h : s.transfer F auth sender receiver amount = .ok s') : s.Sums F s' 0 := by
  have hsums := (transfer_moves hF h).sums
  rwa [show Fungible.movedOf (some receiver) amount - Fungible.movedOf (some sender) amount = 0 from
    Int.sub_self amount] at hsums

theorem mint_sums (hF : F.Lawful) (h : s.mint F auth admin receiver amount = .ok s') : s.Sums F s' amount := by
  have hsums := (mint_moves hF h).sums
  rwa [show Fungible.movedOf (some receiver) amount - Fungible.movedOf none amount = amount from
    Int.sub_zero amount] at hsums

theorem burn_sums (hF : F.Lawful) (h : s.burn F auth holder amount = .ok s') : s.Sums F s' (-amount) := by
  have hsums := (burn_moves hF h).sums
  rwa [show Fungible.movedOf none amount - Fungible.movedOf (some holder) amount = -amount from
    Int.zero_sub amount] at hsums

end MockBrltToken
end CredBridge.Contracts
