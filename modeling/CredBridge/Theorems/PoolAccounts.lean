import CredBridge.Theorems.RepaidInvoices

/-! # The pool's accounts

What the pool is worth and into how many shares it is divided, apart from who holds them: the BRLT it has,
the principal it has out, and the shares. A step of the ledger that nobody takes in the pool's own name moves
these three numbers in one of five ways, or leaves them alone. -/

namespace CredBridge.Contracts.LiquidityPool
open Result Machine

/-! ### Accounts and their movements -/

structure Accounts where
  cash : Int
  principal : Int
  shares : Int
deriving DecidableEq

inductive Movement where
  | deposit (amount : Int)
  | withdraw (shares : Int)
  /-- The seller may be the pool itself. -/
  | buy (advance : Int) (ownSale : Bool)
  | settle (principal : Int)
  /-- BRLT that comes in from outside. -/
  | receive (amount : Int)
  | keep

/-- Nothing less than nothing comes in. -/
def Movement.Incoming : Movement → Prop
  | .receive amount => 0 ≤ amount
  | _ => True

namespace Accounts

def nav (a : Accounts) : Int := a.cash + a.principal

def fund (a : Accounts) : Fund := ⟨a.nav, a.shares⟩

def after (a : Accounts) : Movement → Accounts
  | .deposit amount => { a with cash := a.cash + amount, shares := a.shares + a.fund.minted amount }
  | .withdraw shares => { a with cash := a.cash - a.fund.redeemable shares, shares := a.shares - shares }
  | .buy advance ownSale =>
    { a with cash := if ownSale then a.cash else a.cash - advance, principal := a.principal + advance }
  | .settle principal => { a with principal := a.principal - min principal a.principal }
  | .receive amount => { a with cash := a.cash + amount }
  | .keep => a

/-- What the pool has checked when it makes a movement. -/
def Allows (a : Accounts) : Movement → Prop
  | .deposit amount => 0 < amount ∧ (0 < a.fund.value ∨ a.fund.shares = 0)
  | .withdraw shares => 0 < shares ∧ shares ≤ a.shares ∧ 0 < a.nav ∧ a.fund.redeemable shares ≤ a.cash
  | .buy advance _ => 0 < advance ∧ advance ≤ a.cash
  | .settle principal => 0 < principal
  | .receive _ | .keep => True

/-- No account is overdrawn. -/
structure Sound (a : Accounts) : Prop where
  cash : 0 ≤ a.cash
  principal : 0 ≤ a.principal
  shares : 0 ≤ a.shares

theorem Sound.nav {a : Accounts} (h : a.Sound) : 0 ≤ a.nav := Int.add_nonneg h.cash h.principal

theorem Sound.after {a : Accounts} {m : Movement} (h : a.Sound) (hm : a.Allows m) (hin : m.Incoming) :
    (a.after m).Sound := by
  have hcash := h.cash
  have hprincipal := h.principal
  have hshares := h.shares
  cases m with
  | deposit amount =>
    obtain ⟨hamount, hvalue⟩ := hm
    have hminted := Fund.minted_nonneg hvalue h.shares (Int.le_of_lt hamount)
    exact ⟨Int.add_nonneg hcash (Int.le_of_lt hamount), hprincipal, Int.add_nonneg hshares hminted⟩
  | withdraw shares =>
    obtain ⟨-, hle, -, hpaid⟩ := hm
    exact ⟨Int.sub_nonneg.mpr hpaid, hprincipal, Int.sub_nonneg.mpr hle⟩
  | buy advance ownSale =>
    obtain ⟨hpos, hle⟩ := hm
    refine ⟨?_, Int.add_nonneg hprincipal (Int.le_of_lt hpos), hshares⟩
    show 0 ≤ if ownSale then a.cash else a.cash - advance
    split
    · exact hcash
    · exact Int.sub_nonneg.mpr hle
  | settle principal =>
    refine ⟨hcash, ?_, hshares⟩
    show 0 ≤ a.principal - min principal a.principal
    omega
  | receive amount => exact ⟨Int.add_nonneg hcash hin, hprincipal, hshares⟩
  | keep => exact h

/-- What a movement adds to the NAV. A purchase turns cash into principal, unless the pool buys from itself. -/
def gain (a : Accounts) : Movement → Int
  | .deposit amount => amount
  | .withdraw shares => -a.fund.redeemable shares
  | .buy advance ownSale => if ownSale then advance else 0
  | .settle principal => -min principal a.principal
  | .receive amount => amount
  | .keep => 0

theorem nav_after (a : Accounts) (m : Movement) : (a.after m).nav = a.nav + a.gain m := by
  unfold nav after gain
  cases m with
  | buy advance ownSale =>
    cases ownSale with
    | true =>
      simp only [if_true]
      omega
    | false =>
      simp only [Bool.false_eq_true, if_false]
      omega
  | _ =>
    simp only
    omega

end Accounts

/-! ### The ledger's steps as movements -/

section Refinement
variable {τ : Type} (T : TokenContracts τ) (self : Address)

def World.accounts (w : World τ) (st : PoolState) : Accounts := ⟨w.cash T self st, st.totalPrincipal, st.totalShares⟩

/-- What a call of the token contracts brings into the pool. -/
def TokenCall.received (asset : Address) : TokenCall → Int
  | .transfer token _ receiver amount => moved token receiver amount asset self
  | .mint token _ receiver amount => moved token receiver amount asset self
  | .burn .. => 0

def Input.movement (asset : Address) : Input → Movement
  | .invoke ⟨_, _, .deposit _ amount⟩ => .deposit amount
  | .invoke ⟨_, _, .withdraw _ shares⟩ => .withdraw shares
  | .invoke ⟨_, _, .buyTokenizedInvoice _ seller _ _ advance _ _⟩ => .buy advance (decide (seller = self))
  | .invoke ⟨_, _, .settleInvoiceInPool _ _ principal⟩ => .settle principal
  | .invoke _ => .keep
  | .token _ call => .receive (call.received self asset)
  | .repay _ _ _ amount => .receive amount

/-- From `w`, where the state is `st`, the accounts have made the movement, which they allowed. -/
def World.Moved (w w' : World τ) (st : PoolState) (m : Movement) : Prop :=
  (w.accounts T self st).Allows m ∧ ∃ st', w'.state? = some st' ∧ st'.assetAddress = st.assetAddress ∧
    w'.accounts T self st' = (w.accounts T self st).after m

end Refinement

/-- The accounts are sound, and before there are any, the pool owes no token. -/
structure Ledger.Sound {τ : Type} (T : TokenContracts τ) (pool : Address) (s : Ledger τ) : Prop where
  before : s.world.state? = none → ∀ a, 0 ≤ T.balance s.world.tokens a pool
  accounts : ∀ st ∈ s.world.state?, (s.world.accounts T pool st).Sound

section Steps
variable {τ : Type} {T : TokenContracts τ} {self : Address} {w w' : World τ} {s t : Ledger τ} {i : Input} {st st' : PoolState}

theorem TokenCall.balance_received (hT : T.Exact) {auth : Address → Bool} {call : TokenCall} {tokens tokens' : τ}
    (hp : call.payer? ≠ some self) (h : call.apply T auth tokens = .ok tokens') (asset : Address) :
    T.balance tokens' asset self = T.balance tokens asset self + call.received self asset := by
  cases call with
  | transfer token sender receiver amount =>
    have hself : self ≠ sender := fun he => hp (congrArg some he.symm)
    rw [hT.transfer h, moved_of_ne hself, Int.sub_zero]
    rfl
  | mint token admin receiver amount => exact hT.mint h asset self
  | burn token holder amount =>
    have hself : self ≠ holder := fun he => hp (congrArg some he.symm)
    rw [hT.burn h, moved_of_ne hself, Int.sub_zero]
    exact (Int.add_zero _).symm

theorem accounts_save {cash : Int} (hasset : st'.assetAddress = st.assetAddress)
    (hcash : T.balance w'.tokens st.assetAddress self = cash) :
    w'.accounts T self st' = ⟨cash, st'.totalPrincipal, st'.totalShares⟩ := by
  unfold World.accounts World.cash
  rw [hasset, hcash]

theorem Moved.kept (hst' : w'.state? = some st') (htokens : w'.tokens = w.tokens)
    (hasset : st'.assetAddress = st.assetAddress) (hprincipal : st'.totalPrincipal = st.totalPrincipal)
    (hshares : st'.totalShares = st.totalShares) : w.Moved T self w' st .keep := by
  refine ⟨trivial, st', hst', hasset, ?_⟩
  rw [accounts_save hasset rfl, htokens, hprincipal, hshares]
  rfl

theorem Moved.received (hstate : w'.state? = some st) {amount : Int}
    (hcash : T.balance w'.tokens st.assetAddress self = T.balance w.tokens st.assetAddress self + amount) :
    w.Moved T self w' st (.receive amount) :=
  ⟨trivial, st, hstate, rfl, accounts_save rfl hcash⟩

section EntryPoints
variable {auth : Address → Bool} {timestamp : Nat}

theorem deposit_moved (hT : T.Exact) {investor : Address} {amount : Int} (hself : investor ≠ self)
    (hst : w.state? = some st) (hS : 0 ≤ st.totalShares)
    (h : deposit T ⟨self, auth, timestamp⟩ w investor amount = .ok w') : w.Moved T self w' st (.deposit amount) := by
  obtain ⟨st₁, shares, hst₁, hamount, hshares, hst', -, hcash⟩ := deposit_accounts hT hself h
  rw [hst] at hst₁
  cases hst₁
  obtain ⟨-, -, hvalue⟩ := deposit_fund hT ⟨self, auth, timestamp⟩ hself h (fund?_of_state? hst) hS
  refine ⟨⟨hamount, hvalue⟩, _, hst', rfl, ?_⟩
  refine Eq.trans (accounts_save rfl hcash) ?_
  rw [sharesToMint_eq_minted hshares hamount hS]
  rfl

theorem withdraw_moved (hT : T.Exact) {investor : Address} {shares : Int} (hself : investor ≠ self)
    (hst : w.state? = some st) (h : withdraw T ⟨self, auth, timestamp⟩ w investor shares = .ok w') :
    w.Moved T self w' st (.withdraw shares) := by
  obtain ⟨st₁, hst₁, hpos, hle, hnav, hst', -, hcash⟩ := withdraw_accounts hT hself h
  rw [hst] at hst₁
  cases hst₁
  obtain ⟨st₂, paid, -, hst₂, -, -, -, -, hpaid, hle', -⟩ := withdraw_inv h
  rw [hst] at hst₂
  cases hst₂
  rw [hpaid, Int.tdiv_eq_ediv_of_nonneg (Int.mul_nonneg (Int.le_of_lt hpos) (Int.le_of_lt hnav))] at hle'
  exact ⟨⟨hpos, hle, hnav, hle'⟩, _, hst', rfl, accounts_save rfl hcash⟩

theorem buyTokenizedInvoice_moved (hT : T.Exact) {operator seller : Address} {hash : BytesN 32} {face advance rate : Int}
    {maturity : Nat} (hst : w.state? = some st)
    (h : buyTokenizedInvoice T ⟨self, auth, timestamp⟩ w operator seller hash face advance rate maturity = .ok w') :
    w.Moved T self w' st (.buy advance (decide (seller = self))) := by
  obtain ⟨st₁, hst₁, -, -, hpos, -, -, hle, htransfer, hs⟩ := buyTokenizedInvoice_inv h
  rw [hst] at hst₁
  cases hst₁
  have hcash : T.balance w'.tokens st.assetAddress self =
      if decide (seller = self) then w.cash T self st else w.cash T self st - advance := by
    rw [hT.transfer htransfer, moved_self]
    show w.cash T self st - advance + moved st.assetAddress seller advance st.assetAddress self = _
    by_cases heq : seller = self
    · rw [heq, moved_self, if_pos (decide_eq_true rfl)]
      omega
    · rw [moved_of_ne (Ne.symm heq), if_neg (by simpa using heq), Int.add_zero]
  exact ⟨⟨hpos, hle⟩, _, state?_saveState hst hs rfl, rfl, accounts_save rfl hcash⟩

theorem settleInvoiceInPool_moved {operator : Address} {hash : BytesN 32} {principal : Int} (hst : w.state? = some st)
    (h : settleInvoiceInPool ⟨self, auth, timestamp⟩ w operator hash principal = .ok w') :
    w.Moved T self w' st (.settle principal) := by
  obtain ⟨st₁, hst₁, -, -, hpos, htokens, hs⟩ := settleInvoiceInPool_inv h
  rw [hst] at hst₁
  cases hst₁
  refine ⟨hpos, _, state?_saveState hst hs rfl, rfl, ?_⟩
  refine Eq.trans (accounts_save rfl (congrArg (T.balance · st.assetAddress self) htokens)) ?_
  have hafter : (if principal > st.totalPrincipal then 0 else st.totalPrincipal - principal) =
      st.totalPrincipal - min principal st.totalPrincipal := by
    split <;> omega
  rw [hafter]
  rfl

end EntryPoints

theorem invoke_moved (hT : T.Exact) {inv : Invocation} (hothers : (Input.invoke inv).ByOthers self)
    (hst : w.state? = some st) (hS : 0 ≤ st.totalShares) (h : invoke T self w inv = .ok w') :
    w.Moved T self w' st ((Input.invoke inv).movement self st.assetAddress) := by
  obtain ⟨auth, timestamp, call⟩ := inv
  cases call with
  | initializePool admin operator asset share =>
    obtain ⟨hfresh, -, -⟩ := initializePool_inv h
    rw [state?_eq_none hfresh] at hst
    cases hst
  | deposit investor amount =>
    have h : deposit T ⟨self, auth, timestamp⟩ w investor amount = .ok w' := h
    exact deposit_moved hT (fun he => hothers (congrArg some he)) hst hS h
  | withdraw investor shares =>
    have h : withdraw T ⟨self, auth, timestamp⟩ w investor shares = .ok w' := h
    exact withdraw_moved hT (fun he => hothers (congrArg some he)) hst h
  | buyTokenizedInvoice operator seller hash face advance rate maturity =>
    have h : buyTokenizedInvoice T ⟨self, auth, timestamp⟩ w operator seller hash face advance rate maturity =
      .ok w' := h
    exact buyTokenizedInvoice_moved hT hst h
  | settleInvoiceInPool operator hash principal =>
    have h : settleInvoiceInPool ⟨self, auth, timestamp⟩ w operator hash principal = .ok w' := h
    exact settleInvoiceInPool_moved hst h
  | pause admin | unpause admin =>
    obtain ⟨st₁, hst₁, -, htokens, hs⟩ := setPaused_inv h
    rw [hst] at hst₁
    cases hst₁
    exact Moved.kept (state?_saveState hst hs rfl) htokens rfl rfl rfl
  | setOperator admin operator =>
    obtain ⟨st₁, hst₁, -, htokens, hs⟩ := setOperator_inv h
    rw [hst] at hst₁
    cases hst₁
    exact Moved.kept (state?_saveState hst hs rfl) htokens rfl rfl rfl

/-- A step that nobody takes in the pool's name is a movement of its accounts that they allow. -/
theorem Ledger.step_moved (hT : T.Exact) (hothers : i.ByOthers self) (hst : s.world.state? = some st)
    (hS : 0 ≤ st.totalShares) (h : s.step T self i = .ok t) :
    s.world.Moved T self t.world st (i.movement self st.assetAddress) := by
  cases i with
  | token auth call =>
    obtain ⟨htokens, hs, -⟩ := Ledger.token_inv h
    exact Moved.received ((state?_congr hs).trans hst) (TokenCall.balance_received hT hothers htokens _)
  | repay auth payer hash amount =>
    obtain ⟨st₁, hst₁, htransfer, hs, -⟩ := Ledger.repay_inv h
    rw [hst] at hst₁
    cases hst₁
    have hself : self ≠ payer := fun he => hothers (congrArg some he.symm)
    refine Moved.received ((state?_congr hs).trans hst) ?_
    rw [hT.transfer htransfer, moved_self, moved_of_ne hself, Int.sub_zero]
  | invoke inv => exact invoke_moved hT hothers hst hS (Ledger.invoke_inv h).1

/-- Before the pool is initialized, a step brings tokens in, or initializes it with empty accounts but for its cash. -/
theorem Ledger.step_opened (hT : T.Exact) (hothers : i.ByOthers self) (hnone : s.world.state? = none)
    (h : s.step T self i = .ok t) :
    (∃ auth call, i = .token auth call ∧ t.world.state? = none ∧
      ∀ a, T.balance t.world.tokens a self = T.balance s.world.tokens a self + call.received self a) ∨
    ∃ st, t.world.state? = some st ∧ t.world.tokens = s.world.tokens ∧ st.totalPrincipal = 0 ∧ st.totalShares = 0 := by
  cases i with
  | token auth call =>
    obtain ⟨htokens, hs, -⟩ := Ledger.token_inv h
    exact .inl ⟨auth, call, rfl, (state?_congr hs).trans hnone, TokenCall.balance_received hT hothers htokens⟩
  | repay auth payer hash amount =>
    obtain ⟨st, hst, -⟩ := Ledger.repay_inv h
    rw [hnone] at hst
    cases hst
  | invoke inv =>
    obtain ⟨hw, -⟩ := Ledger.invoke_inv h
    right
    obtain ⟨auth, timestamp, call⟩ := inv
    cases call with
    | initializePool admin operator asset share =>
      obtain ⟨-, hs, htokens⟩ := initializePool_inv hw
      exact ⟨_, state?_of_saved (by rw [hs]) (by rw [hs]), htokens, rfl, rfl⟩
    | deposit investor amount =>
      obtain ⟨st, -, -, hst, -⟩ := deposit_inv hw
      rw [hnone] at hst
      cases hst
    | withdraw investor shares =>
      obtain ⟨st, -, -, hst, -⟩ := withdraw_inv hw
      rw [hnone] at hst
      cases hst
    | buyTokenizedInvoice operator seller hash face advance rate maturity =>
      obtain ⟨st, hst, -⟩ := buyTokenizedInvoice_inv hw
      rw [hnone] at hst
      cases hst
    | settleInvoiceInPool operator hash principal =>
      obtain ⟨st, hst, -⟩ := settleInvoiceInPool_inv hw
      rw [hnone] at hst
      cases hst
    | pause admin | unpause admin =>
      obtain ⟨st, hst, -⟩ := setPaused_inv hw
      rw [hnone] at hst
      cases hst
    | setOperator admin operator =>
      obtain ⟨st, hst, -⟩ := setOperator_inv hw
      rw [hnone] at hst
      cases hst

/-! ### The counter of shares -/

/-- Where the number of shares after a step comes from. -/
inductive SharesStep (T : TokenContracts τ) (self : Address) (s : Ledger τ) (st' : PoolState) : Prop where
  | opened : st'.totalShares = 0 → SharesStep T self s st'
  | same (st : PoolState) : s.world.state? = some st → st'.totalShares = st.totalShares → SharesStep T self s st'
  | minted (st : PoolState) (amount shares : Int) : s.world.state? = some st → 0 < amount →
      sharesToMint st (s.world.nav T self st) amount = .ok shares → st'.totalShares = st.totalShares + shares →
      st'.totalShares ≤ I128.max → SharesStep T self s st'
  | burned (st : PoolState) (shares : Int) : s.world.state? = some st → 0 < shares → shares ≤ st.totalShares →
      st'.totalShares = st.totalShares - shares → SharesStep T self s st'

theorem deposit_sharesFit {env : Env} {w w' : World τ} {investor : Address} {amount : Int}
    (h : deposit T env w investor amount = .ok w') : ∃ st, w'.state? = some st ∧ st.totalShares ≤ I128.max := by
  obtain ⟨-, -, h⟩ := bind_eq_ok.mp h
  obtain ⟨st, hst, h⟩ := bind_eq_ok.mp h
  obtain ⟨-, h⟩ := throwIf_bind_eq_ok.mp h
  obtain ⟨-, h⟩ := throwIf_bind_eq_ok.mp h
  obtain ⟨_, -, h⟩ := bind_eq_ok.mp h
  obtain ⟨_, -, h⟩ := bind_eq_ok.mp h
  obtain ⟨_, -, h⟩ := bind_eq_ok.mp h
  obtain ⟨_, -, h⟩ := bind_eq_ok.mp h
  obtain ⟨total, htotal, h⟩ := bind_eq_ok.mp h
  obtain ⟨_, -, h⟩ := bind_eq_ok.mp h
  obtain ⟨_, -, h⟩ := bind_eq_ok.mp h
  obtain ⟨_, -, h⟩ := bind_eq_ok.mp h
  cases pure_eq_ok.mp h
  obtain ⟨⟨-, hmax⟩, rfl⟩ := I128.checked_eq_ok.mp htotal
  exact ⟨_, state?_saveState (loadState_eq_ok.mp hst) rfl rfl, hmax⟩

theorem Ledger.shares_step (h : s.step T self i = .ok t) (hst' : t.world.state? = some st') :
    SharesStep T self s st' := by
  cases i with
  | token auth call =>
    obtain ⟨-, hs, -⟩ := Ledger.token_inv h
    exact .same st' ((state?_congr hs).symm.trans hst') rfl
  | repay auth payer hash amount =>
    obtain ⟨-, -, -, hs, -⟩ := Ledger.repay_inv h
    exact .same st' ((state?_congr hs).symm.trans hst') rfl
  | invoke inv =>
    obtain ⟨hw, -⟩ := Ledger.invoke_inv h
    obtain ⟨auth, timestamp, call⟩ := inv
    cases call with
    | initializePool admin operator asset share =>
      obtain ⟨-, hs, -⟩ := initializePool_inv hw
      rw [state?_of_saved (by rw [hs]) (by rw [hs])] at hst'
      cases hst'
      exact .opened rfl
    | deposit investor amount =>
      have hw : LiquidityPool.deposit T ⟨self, auth, timestamp⟩ s.world investor amount = .ok t.world := hw
      obtain ⟨st, shares, -, hst, -, hamount, -, hshares, -, hs⟩ := deposit_inv hw
      obtain ⟨st₁, hst₁, hfits⟩ := deposit_sharesFit hw
      rw [hst'] at hst₁
      cases hst₁
      rw [state?_saveState hst hs rfl] at hst'
      cases hst'
      exact .minted st amount shares hst hamount hshares rfl hfits
    | withdraw investor shares =>
      obtain ⟨st, -, -, hst, -, hpos, hle, -, -, -, -, -, hs⟩ := withdraw_inv hw
      rw [state?_saveState hst hs rfl] at hst'
      cases hst'
      exact .burned st shares hst hpos hle rfl
    | buyTokenizedInvoice operator seller hash face advance rate maturity =>
      obtain ⟨st, hst, -, -, -, -, -, -, -, hs⟩ := buyTokenizedInvoice_inv hw
      rw [state?_saveState hst hs rfl] at hst'
      cases hst'
      exact .same st hst rfl
    | settleInvoiceInPool operator hash principal =>
      obtain ⟨st, hst, -, -, -, -, hs⟩ := settleInvoiceInPool_inv hw
      rw [state?_saveState hst hs rfl] at hst'
      cases hst'
      exact .same st hst rfl
    | pause admin | unpause admin =>
      obtain ⟨st, hst, -, -, hs⟩ := setPaused_inv hw
      rw [state?_saveState hst hs rfl] at hst'
      cases hst'
      exact .same st hst rfl
    | setOperator admin operator =>
      obtain ⟨st, hst, -, -, hs⟩ := setOperator_inv hw
      rw [state?_saveState hst hs rfl] at hst'
      cases hst'
      exact .same st hst rfl

/-! ### No account is ever overdrawn -/

theorem TokenCall.received_nonneg (hT : T.Honest) {auth : Address → Bool} {call : TokenCall} {tokens tokens' : τ}
    (h : call.apply T auth tokens = .ok tokens') (asset : Address) : 0 ≤ call.received self asset := by
  cases call with
  | transfer token sender receiver amount => exact moved_nonneg (hT.transfer_nonneg h)
  | mint token admin receiver amount => exact moved_nonneg (hT.mint_nonneg h)
  | burn token holder amount => exact Int.le_refl 0

theorem Ledger.step_incoming (hT : T.Honest) (h : s.step T self i = .ok t) (asset : Address) :
    (i.movement self asset).Incoming := by
  cases i with
  | token auth call => exact TokenCall.received_nonneg hT (Ledger.token_inv h).1 asset
  | repay auth payer hash amount =>
    obtain ⟨_, -, htransfer, -⟩ := Ledger.repay_inv h
    exact hT.transfer_nonneg htransfer
  | invoke inv =>
    obtain ⟨auth, timestamp, call⟩ := inv
    cases call <;> trivial

theorem Ledger.Sound.step (hT : T.Honest) (hS : s.Sound T self) (hothers : i.ByOthers self)
    (h : s.step T self i = .ok t) : t.Sound T self := by
  cases hst : s.world.state? with
  | none =>
    rcases Ledger.step_opened hT.toExact hothers hst h with ⟨auth, call, rfl, hnone, hbalance⟩ | ⟨st, hst', htokens, hp, hz⟩
    · refine ⟨fun _ a => ?_, fun st' hst' => ?_⟩
      · rw [hbalance]
        exact Int.add_nonneg (hS.before hst a) (TokenCall.received_nonneg hT (Ledger.token_inv h).1 a)
      · rw [hnone] at hst'
        cases hst'
    · refine ⟨fun hnone => ?_, fun st' hst'' => ?_⟩
      · rw [hst'] at hnone
        cases hnone
      · rw [hst'] at hst''
        cases hst''
        refine ⟨?_, Int.le_of_eq hp.symm, Int.le_of_eq hz.symm⟩
        show 0 ≤ T.balance t.world.tokens st.assetAddress self
        rw [htokens]
        exact hS.before hst _
  | some st =>
    have hsound := hS.accounts st hst
    obtain ⟨hallows, st', hst', -, hafter⟩ := Ledger.step_moved hT.toExact hothers hst hsound.shares h
    refine ⟨fun hnone => ?_, fun st'' hst'' => ?_⟩
    · rw [hst'] at hnone
      cases hnone
    · rw [hst'] at hst''
      cases hst''
      rw [hafter]
      exact hsound.after hallows (Ledger.step_incoming hT h _)

theorem Ledger.sound_deployed {tokens : τ} (hcash : ∀ a, 0 ≤ T.balance tokens a self) :
    (Ledger.deployed tokens).Sound T self :=
  ⟨fun _ => hcash, nofun⟩

end Steps
end CredBridge.Contracts.LiquidityPool
