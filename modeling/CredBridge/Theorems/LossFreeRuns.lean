import CredBridge.Theorems.PositiveNav

/-! # Runs without a loss

When each settlement directly follows a transfer of BRLT that covers the principal it takes off, no share ever
falls below one unit of value. The invariant looks one step ahead: the shares are covered even without what the
last transfer brought in. A pool at par whose value fits in 63 bits computes with numbers that fit in 128. -/

namespace CredBridge.Contracts.LiquidityPool
open Result Machine

/-! ### The ledger with its last transfer -/

/-- What a transfer from outside brings into the pool. -/
def Input.transferred (self asset : Address) : Input → Int
  | .token _ (.transfer t _ receiver amount) => moved t receiver amount asset self
  | .repay _ _ _ amount => amount
  | _ => 0

/-- The ledger, and how much BRLT the last step transferred into the pool. -/
structure Followed (τ : Type) where
  ledger : Ledger τ
  transferred : Int

section Statements
variable {τ : Type} (T : TokenContracts τ) (self : Address)

def Followed.deployed (tokens : τ) : Followed τ := ⟨.deployed tokens, 0⟩

def Followed.step (s : Followed τ) (i : Input) : Except Trap (Followed τ) := do
  let ledger ← s.ledger.step T self i
  let transferred := match s.ledger.world.state? with
    | some st => i.transferred self st.assetAddress
    | none => 0
  pure { ledger, transferred }

/-- A settlement takes off no more than the step before it transferred into the pool. -/
def Followed.SettlesTransferred (s : Followed τ) (i : Input) : Prop :=
  ∀ x ∈ i.settles?, ∀ st ∈ s.ledger.world.state?, min x.2 st.totalPrincipal ≤ s.transferred

/-- One of the token calls of a deposit traps on arithmetic of its own: the transfer of the amount, or the mint of the
    shares that it buys. -/
def DepositTokenTraps (env : Env) (w : World τ) (st : PoolState) (investor : Address) (amount : Int) : Prop :=
  transferTokenToPool T env w.tokens st.assetAddress investor amount = .error .arithmetic ∨
    ∃ tokens shares, transferTokenToPool T env w.tokens st.assetAddress investor amount = .ok tokens ∧
      sharesToMint st (w.nav T env.currentContractAddress st) amount = .ok shares ∧
      mintShares T env tokens st.shareTokenAddress investor shares = .error .arithmetic

/-- One of the token calls of a withdrawal traps on arithmetic of its own: the burn of the shares, or the transfer of what
    they are worth. -/
def WithdrawTokenTraps (env : Env) (w : World τ) (st : PoolState) (investor : Address) (shares : Int) : Prop :=
  burnShares T env w.tokens st.shareTokenAddress investor shares = .error .arithmetic ∨
    ∃ tokens, burnShares T env w.tokens st.shareTokenAddress investor shares = .ok tokens ∧
      transferTokenFromPool T env tokens st.assetAddress investor
        (shares * w.nav T env.currentContractAddress st / st.totalShares) = .error .arithmetic

/-- While the NAV and a further amount fit in 63 bits, no arithmetic of the pool's own leaves 128 bits. -/
def World.NoOverflow (w : World τ) : Prop :=
  ∀ st ∈ w.state?, ∀ env, env.currentContractAddress = self → ∀ amount, 0 ≤ amount →
    w.nav T self st + amount ≤ 2 ^ 63 - 1 →
      (∀ investor, deposit T env w investor amount = .error .arithmetic → DepositTokenTraps T env w st investor amount) ∧
      (∀ investor shares, 0 ≤ shares → shares ≤ st.totalShares →
        withdraw T env w investor shares = .error .arithmetic → WithdrawTokenTraps T env w st investor shares) ∧
      getSharePrice T env w ≠ .error .arithmetic

/-- The shares are covered by the NAV, and while there are any, the price is at par. -/
def World.AtPar (w : World τ) : Prop :=
  ∀ st ∈ w.state?, st.totalShares ≤ w.nav T self st ∧
    (0 < st.totalShares → ∀ env price, env.currentContractAddress = self → getSharePrice T env w = .ok price →
      priceScale ≤ price)

instance (s : Followed τ) (i : Input) : Decidable (s.SettlesTransferred i) :=
  inferInstanceAs (Decidable (∀ x ∈ i.settles?, ∀ st ∈ s.ledger.world.state?, _))

end Statements

/-! ### Accounts that stay at par -/

namespace Accounts
variable {a : Accounts} {m : Movement} {x y : Int}

/-- The shares are covered without the `x` that came in last. -/
def Covers (a : Accounts) (x : Int) : Prop := a.shares + x ≤ a.nav

theorem Covers.atPar (h : a.Covers x) (hx : 0 ≤ x) : a.fund.AtPar := by
  show a.shares ≤ a.nav
  have hle : a.shares + x ≤ a.nav := h
  omega

/-- What a movement may count as come in. -/
def incoming : Movement → Int
  | .receive amount => amount
  | _ => 0

theorem Covers.after (h : a.Covers x) (hx : 0 ≤ x) (hallows : a.Allows m)
    (hsettle : ∀ principal, m = .settle principal → min principal a.principal ≤ x) (hy : y ≤ incoming m) :
    (a.after m).Covers y := by
  have hpar : a.shares ≤ a.nav := h.atPar hx
  unfold Covers
  rw [nav_after]
  cases m with
  | deposit amount =>
    obtain ⟨hamount, hvalue⟩ := hallows
    have hle : a.fund.minted amount ≤ amount := Fund.minted_le_of_atPar hpar hvalue (Int.le_of_lt hamount)
    have hy : y ≤ 0 := hy
    show a.shares + a.fund.minted amount + y ≤ a.nav + amount
    omega
  | withdraw shares =>
    obtain ⟨hpos, hle, -, -⟩ := hallows
    have hafter : a.shares - shares ≤ a.nav - a.fund.redeemable shares :=
      Fund.atPar_payOut (f := a.fund) hpar (Int.lt_of_lt_of_le hpos hle) hle
    have hy : y ≤ 0 := hy
    show a.shares - shares + y ≤ a.nav + -a.fund.redeemable shares
    omega
  | buy advance ownSale =>
    have hy : y ≤ 0 := hy
    have hpos : 0 < advance := hallows.1
    show a.shares + y ≤ a.nav + if ownSale then advance else 0
    split <;> omega
  | settle principal =>
    have hle := hsettle principal rfl
    have hcovers : a.shares + x ≤ a.nav := h
    have hy : y ≤ 0 := hy
    show a.shares + y ≤ a.nav + -min principal a.principal
    omega
  | receive amount =>
    have hy : y ≤ amount := hy
    show a.shares + y ≤ a.nav + amount
    omega
  | keep =>
    have hy : y ≤ 0 := hy
    show a.shares + y ≤ a.nav + 0
    omega

end Accounts

section Steps
variable {τ : Type} {T : TokenContracts τ} {self : Address} {s t : Followed τ} {i : Input} {st : PoolState}

theorem Followed.step_inv (h : s.step T self i = .ok t) : s.ledger.step T self i = .ok t.ledger ∧
    t.transferred = match s.ledger.world.state? with
      | some st => i.transferred self st.assetAddress
      | none => 0 := by
  obtain ⟨ledger, hl, h⟩ := bind_eq_ok.mp h
  cases pure_eq_ok.mp h
  exact ⟨hl, rfl⟩

theorem Input.transferred_le (hT : T.Honest) {l l' : Ledger τ} (h : l.step T self i = .ok l') (asset : Address) :
    0 ≤ i.transferred self asset ∧ i.transferred self asset ≤ Accounts.incoming (i.movement self asset) := by
  cases i with
  | token auth call =>
    have hreceived : 0 ≤ call.received self asset := TokenCall.received_nonneg hT (Ledger.token_inv h).1 asset
    cases call with
    | transfer token sender receiver amount => exact ⟨hreceived, Int.le_refl _⟩
    | mint token admin receiver amount => exact ⟨Int.le_refl 0, hreceived⟩
    | burn token holder amount => exact ⟨Int.le_refl 0, Int.le_refl 0⟩
  | repay auth payer hash amount =>
    obtain ⟨_, -, htransfer, -⟩ := Ledger.repay_inv h
    exact ⟨hT.transfer_nonneg htransfer, Int.le_refl _⟩
  | invoke inv =>
    obtain ⟨auth, timestamp, call⟩ := inv
    cases call <;> exact ⟨Int.le_refl 0, Int.le_refl 0⟩

/-- The shares are covered without what the last step transferred. -/
structure Followed.Covered (T : TokenContracts τ) (pool : Address) (s : Followed τ) : Prop where
  sound : s.ledger.Sound T pool
  nonneg : 0 ≤ s.transferred
  covers : ∀ st ∈ s.ledger.world.state?, (s.ledger.world.accounts T pool st).Covers s.transferred

theorem Followed.Covered.step (hT : T.Honest) (hC : s.Covered T self) (hothers : i.ByOthers self)
    (hsettles : s.SettlesTransferred i) (h : s.step T self i = .ok t) : t.Covered T self := by
  obtain ⟨hl, htransferred⟩ := Followed.step_inv h
  have hsound := hC.sound.step hT hothers hl
  cases hst : s.ledger.world.state? with
  | none =>
    rw [hst] at htransferred
    refine ⟨hsound, Int.le_of_eq htransferred.symm, fun st' hst' => ?_⟩
    rcases Ledger.step_opened hT.toExact hothers hst hl with ⟨_, _, _, hnone, -⟩ | ⟨st, hst'', -, -, hzero⟩
    · rw [hnone] at hst'
      cases hst'
    · rw [hst''] at hst'
      cases hst'
      have hnav := (hsound.accounts st' hst'').nav
      show st'.totalShares + t.transferred ≤ (t.ledger.world.accounts T self st').nav
      rw [hzero, htransferred]
      exact hnav
  | some st =>
    rw [hst] at htransferred
    have haccounts := hC.sound.accounts st hst
    obtain ⟨hallows, st', hst', -, hafter⟩ := Ledger.step_moved hT.toExact hothers hst haccounts.shares hl
    have hle := Input.transferred_le hT hl st.assetAddress
    refine ⟨hsound, htransferred ▸ hle.1, fun st'' hst'' => ?_⟩
    rw [hst'] at hst''
    cases hst''
    rw [hafter]
    refine (hC.covers st hst).after hC.nonneg hallows (fun principal hm => ?_) (htransferred ▸ hle.2)
    obtain ⟨hash, hi⟩ := Input.movement_eq_settle.mp hm
    exact hsettles (hash, principal) hi st hst

end Steps

/-! ### Numbers that fit -/

def i64Max : Int := 2 ^ 63 - 1

section Fits
variable {τ : Type} {T : TokenContracts τ} {env : Env} {w : World τ} {st : PoolState} {amount shares nav a b : Int}

theorem mul_fits (ha : a ≤ i64Max) (hb0 : 0 ≤ b) (hb : b ≤ i64Max) : a * b ≤ I128.max :=
  calc a * b ≤ i64Max * b := Int.mul_le_mul_of_nonneg_right ha hb0
    _ ≤ i64Max * i64Max := Int.mul_le_mul_of_nonneg_left hb (by decide)
    _ ≤ I128.max := by decide

theorem i64_fits (ha : a ≤ i64Max) : a ≤ I128.max := Int.le_trans ha (by decide)

theorem price_fits (hn0 : 0 ≤ nav) (hn : nav ≤ i64Max) (hs : 0 < shares) :
    ∃ price, (I128.mul nav priceScale >>= fun p => I128.div p shares) = .ok price := by
  have hprod : 0 ≤ nav * priceScale := Int.mul_nonneg hn0 (by decide)
  have hfits : nav * priceScale ≤ I128.max := mul_fits hn (by decide) (by decide)
  refine ⟨nav * priceScale / shares, bind_eq_ok.mpr ⟨_, I128.checked_of_le hprod hfits, ?_⟩⟩
  unfold I128.div
  rw [if_neg (by omega), Int.tdiv_eq_ediv_of_nonneg hprod]
  exact I128.checked_of_le (Int.ediv_nonneg hprod (Int.le_of_lt hs)) (Int.le_trans (Int.ediv_le_self _ hprod) hfits)

theorem sharePriceAfter_fits (hn0 : 0 ≤ nav) (hn : nav ≤ i64Max) :
    ∃ price, sharePriceAfter nav shares = .ok price := by
  unfold sharePriceAfter
  split
  · exact price_fits hn0 hn ‹_›
  · exact ⟨_, rfl⟩

theorem sharesToMint_fits (hS : 0 ≤ st.totalShares) (hpar : st.totalShares ≤ nav) (hnav : nav ≤ i64Max)
    (hamount : 0 < amount) (ha : amount ≤ i64Max) : sharesToMint st nav amount ≠ .error .arithmetic := by
  unfold sharesToMint
  split
  · intro h
    cases h
  · next hne =>
    intro h
    obtain ⟨hpos, h⟩ := throwIf_bind_eq_error (by decide) h
    have hprod : 0 ≤ amount * st.totalShares := Int.mul_nonneg (Int.le_of_lt hamount) hS
    have hfits : amount * st.totalShares ≤ I128.max := mul_fits ha hS (Int.le_trans hpar hnav)
    have h := bind_error_of_ok (I128.checked_of_le hprod hfits) h
    unfold I128.div at h
    rw [if_neg (by omega), Int.tdiv_eq_ediv_of_nonneg hprod, I128.checked_of_le (Int.ediv_nonneg hprod (by omega))
      (Int.le_trans (Int.ediv_le_self _ hprod) hfits)] at h
    cases h

/-- The pool is sound and at par, and its NAV and `amount` fit in 63 bits. -/
structure FitsWith (T : TokenContracts τ) (pool : Address) (w : World τ) (st : PoolState) (amount : Int) : Prop where
  state : w.state? = some st
  sound : (w.accounts T pool st).Sound
  par : st.totalShares ≤ w.nav T pool st
  amount_nonneg : 0 ≤ amount
  fits : w.nav T pool st + amount ≤ i64Max

theorem FitsWith.nav_fits (h : FitsWith T env.currentContractAddress w st amount) :
    0 ≤ w.nav T env.currentContractAddress st ∧ w.nav T env.currentContractAddress st ≤ i64Max := by
  have hnav : 0 ≤ w.nav T env.currentContractAddress st := h.sound.nav
  have hfits := h.fits
  have hamount := h.amount_nonneg
  exact ⟨hnav, by omega⟩

theorem FitsWith.nav_ok (h : FitsWith T env.currentContractAddress w st amount) :
    I128.add (getTokenBalance T env w.tokens st.assetAddress) st.totalPrincipal =
      .ok (w.nav T env.currentContractAddress st) :=
  I128.checked_of_le h.nav_fits.1 (i64_fits h.nav_fits.2)

theorem FitsWith.minted (h : FitsWith T env.currentContractAddress w st amount) (hpos : 0 < amount)
    (hshares : sharesToMint st (w.nav T env.currentContractAddress st) amount = .ok shares) :
    0 ≤ shares ∧ shares ≤ amount := by
  let f : Fund := ⟨w.nav T env.currentContractAddress st, st.totalShares⟩
  have hvalue : 0 < f.value ∨ f.shares = 0 := by
    rcases sharesToMint_inv hshares with ⟨hzero, -⟩ | ⟨-, hN, -⟩
    · exact .inr hzero
    · exact .inl hN
  have hminted : shares = f.minted amount := sharesToMint_eq_minted hshares hpos h.sound.shares
  rw [hminted]
  exact ⟨Fund.minted_nonneg hvalue h.sound.shares (Int.le_of_lt hpos),
    Fund.minted_le_of_atPar (f := f) h.par hvalue (Int.le_of_lt hpos)⟩

theorem FitsWith.deposit (h : FitsWith T env.currentContractAddress w st amount) {investor : Address}
    (htrap : deposit T env w investor amount = .error .arithmetic) : DepositTokenTraps T env w st investor amount := by
  let cash := w.cash T env.currentContractAddress st
  have hcash : 0 ≤ cash := h.sound.cash
  have hprincipal : 0 ≤ st.totalPrincipal := h.sound.principal
  have hS : 0 ≤ st.totalShares := h.sound.shares
  have hpar : st.totalShares ≤ cash + st.totalPrincipal := h.par
  have hfits : cash + st.totalPrincipal + amount ≤ i64Max := h.fits
  have htrap := (throwIf_bind_eq_error (by decide) htrap).2
  have htrap := bind_error_of_ok (loadState_eq_ok.mpr h.state) htrap
  have htrap := (throwIf_bind_eq_error (by decide) htrap).2
  obtain ⟨hpos, htrap⟩ := throwIf_bind_eq_error (by decide) htrap
  have hpos : 0 < amount := Int.not_le.mp hpos
  have htrap := bind_error_of_ok h.nav_ok htrap
  rcases bind_eq_error.mp htrap with htransfer | ⟨tokens, htransfer, htrap⟩
  · exact .inl htransfer
  rcases bind_eq_error.mp htrap with hshares | ⟨shares, hshares, htrap⟩
  · exact absurd hshares (sharesToMint_fits hS hpar h.nav_fits.2 hpos (by omega))
  rcases bind_eq_error.mp htrap with hmint | ⟨tokens', -, htrap⟩
  · exact .inr ⟨tokens, shares, htransfer, hshares, hmint⟩
  -- Nothing is left but the pool's own sums, and all of them fit.
  exfalso
  obtain ⟨hge, hle⟩ := h.minted hpos hshares
  have htotal : I128.add st.totalShares shares = .ok (st.totalShares + shares) :=
    I128.checked_of_le (by omega) (i64_fits (by omega))
  have hpaidIn : I128.add cash amount = .ok (cash + amount) :=
    I128.checked_of_le (by omega) (i64_fits (by omega))
  have hafter : I128.add (cash + amount) st.totalPrincipal = .ok (cash + amount + st.totalPrincipal) :=
    I128.checked_of_le (by omega) (i64_fits (by omega))
  obtain ⟨price, hprice⟩ : ∃ price, sharePriceAfter (cash + amount + st.totalPrincipal) (st.totalShares + shares) =
    .ok price := sharePriceAfter_fits (by omega) (by omega)
  have htrap := bind_error_of_ok htotal htrap
  have htrap := bind_error_of_ok hpaidIn htrap
  have htrap := bind_error_of_ok hafter htrap
  have htrap := bind_error_of_ok hprice htrap
  cases htrap

theorem FitsWith.withdraw (h : FitsWith T env.currentContractAddress w st amount) {investor : Address}
    (hshares : 0 ≤ shares) (hle : shares ≤ st.totalShares) (htrap : withdraw T env w investor shares = .error .arithmetic) :
    WithdrawTokenTraps T env w st investor shares := by
  obtain ⟨hnav0, hnav⟩ := h.nav_fits
  have hfit : st.totalShares ≤ i64Max := Int.le_trans h.par hnav
  have htrap := (throwIf_bind_eq_error (by decide) htrap).2
  have htrap := bind_error_of_ok (loadState_eq_ok.mpr h.state) htrap
  have htrap := (throwIf_bind_eq_error (by decide) htrap).2
  have htrap := (throwIf_bind_eq_error (by decide) htrap).2
  have htrap := (throwIf_bind_eq_error (by decide) htrap).2
  have htrap := bind_error_of_ok h.nav_ok htrap
  obtain ⟨hvalid, htrap⟩ := throwIf_bind_eq_error (by decide) htrap
  have hS : 0 < st.totalShares := Int.not_le.mp fun hn => hvalid (.inr hn)
  have hprod : 0 ≤ shares * w.nav T env.currentContractAddress st := Int.mul_nonneg hshares hnav0
  have hfits : shares * w.nav T env.currentContractAddress st ≤ I128.max := mul_fits (Int.le_trans hle hfit) hnav0 hnav
  have hdiv : I128.div (shares * w.nav T env.currentContractAddress st) st.totalShares =
      .ok (shares * w.nav T env.currentContractAddress st / st.totalShares) := by
    unfold I128.div
    rw [if_neg (by omega), Int.tdiv_eq_ediv_of_nonneg hprod]
    exact I128.checked_of_le (Int.ediv_nonneg hprod (Int.le_of_lt hS)) (Int.le_trans (Int.ediv_le_self _ hprod) hfits)
  have htrap := bind_error_of_ok (I128.checked_of_le hprod hfits) htrap
  have htrap := bind_error_of_ok hdiv htrap
  have htrap := (throwIf_bind_eq_error (by decide) htrap).2
  rcases bind_eq_error.mp htrap with hburn | ⟨tokens, hburn, htrap⟩
  · exact .inl hburn
  rcases bind_eq_error.mp htrap with htransfer | ⟨tokens', -, htrap⟩
  · exact .inr ⟨tokens, hburn, htransfer⟩
  have htotal : I128.sub st.totalShares shares = .ok (st.totalShares - shares) :=
    I128.checked_of_le (by omega) (i64_fits (by omega))
  have htrap := bind_error_of_ok htotal htrap
  cases htrap

theorem FitsWith.getSharePrice (h : FitsWith T env.currentContractAddress w st amount) :
    getSharePrice T env w ≠ .error .arithmetic := by
  intro htrap
  have hload : loadState w.storage = .ok st := loadState_eq_ok.mpr h.state
  have hgetNav : getNav T env w = .ok (w.nav T env.currentContractAddress st) := bind_eq_ok.mpr ⟨st, hload, h.nav_ok⟩
  have htrap := bind_error_of_ok hload htrap
  split at htrap
  · cases htrap
  · next hne =>
    have hS : 0 < st.totalShares := by
      have hnonneg : 0 ≤ st.totalShares := h.sound.shares
      omega
    obtain ⟨price, hprice⟩ := price_fits h.nav_fits.1 h.nav_fits.2 hS
    have htrap := bind_error_of_ok hgetNav htrap
    have heq : Except.ok price = Except.error Trap.arithmetic := hprice.symm.trans htrap
    cases heq

end Fits

theorem Followed.Covered.atPar {τ : Type} {T : TokenContracts τ} {self : Address} {s : Followed τ}
    (hC : s.Covered T self) : s.ledger.world.AtPar T self ∧ s.ledger.world.NoOverflow T self := by
  have hpar : ∀ st ∈ s.ledger.world.state?, st.totalShares ≤ s.ledger.world.nav T self st := fun st hst =>
    (hC.covers st hst).atPar hC.nonneg
  constructor
  · rintro st hst
    refine ⟨hpar st hst, fun hS env price hself h => ?_⟩
    exact price_atPar hst (Int.le_of_lt hS) (hself ▸ hpar st hst) h
  · rintro st hst env rfl amount hamount hfits
    have hfitsWith : FitsWith T env.currentContractAddress s.ledger.world st amount :=
      ⟨hst, hC.sound.accounts st hst, hpar st hst, hamount, hfits⟩
    exact ⟨fun _ h => hfitsWith.deposit h, fun _ _ hshares hle h => hfitsWith.withdraw hshares hle h,
      hfitsWith.getSharePrice⟩

/-- In every run by others than the pool in which each settlement takes off no more than was transferred in just before
    it, the shares are covered by the NAV and the price is at par, and while the NAV fits in 63 bits the pool's arithmetic
    stays within 128. -/
theorem loss_free_runs_at_par {τ : Type} {T : TokenContracts τ} (hT : T.Honest) (pool : Address) (tokens : τ)
    (hcash : ∀ a, 0 ≤ T.balance tokens a pool) (is : List Input) (hothers : ∀ i ∈ is, i.ByOthers pool)
    (hsettles : Along (Followed.step T pool) (fun s i => ∀ t, s.step T pool i = .ok t → s.SettlesTransferred i)
      (.deployed tokens) is) :
    Throughout (Followed.step T pool) (fun s => s.ledger.world.AtPar T pool ∧ s.ledger.world.NoOverflow T pool)
      (.deployed tokens) is := by
  have hcovered : Throughout (Followed.step T pool) (Followed.Covered T pool) (.deployed tokens) is :=
    throughout_of_along (fun s i t hC hQ h => hC.step hT hQ.1 (hQ.2 t h) h)
      ⟨Ledger.sound_deployed hcash, Int.le_refl 0, nofun⟩ ((Along.of_forall hothers).and hsettles)
  exact hcovered.mono fun s hC => hC.atPar

section Examples
open Deployment

theorem loss_free_runs_at_par_repaid :
    Throughout (Followed.step mockBrlt pool) (fun s => s.ledger.world.AtPar mockBrlt pool ∧
      s.ledger.world.NoOverflow mockBrlt pool) (.deployed tokens)
      [initializes, deposits investor 100, buys 1 60, repays 1 70, settles 1 60, withdraws investor 100,
        deposits bystander 10] :=
  loss_free_runs_at_par mockBrlt_honest pool tokens tokens_nonneg _ (by decide)
    (Along.mono (Q := Followed.SettlesTransferred) (by decide) fun _ _ h _ _ => h)

end Examples
end CredBridge.Contracts.LiquidityPool
