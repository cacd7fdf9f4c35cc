import CredBridge.Theorems.PoolAccounts

/-! # A pool that is never bricked

While there are shares, the pool must be worth something and so must each share, or else deposits and
withdrawals are refused for good. Deposits, withdrawals, purchases and incoming transfers keep that, however
the two divisions round. A settlement does not: it takes principal off the books whether or not the invoice
was repaid. -/

namespace CredBridge.Contracts.LiquidityPool
open Result Machine

section Statements
variable {τ : Type} (T : TokenContracts τ) (self : Address)

/-- With shares, the NAV and any share price are positive, and the guards of `deposit` and `withdraw` let the NAV pass. -/
def Ledger.Unbricked (s : Ledger τ) : Prop :=
  ∀ st ∈ s.world.state?, 0 < st.totalShares →
    0 < s.world.nav T self st ∧
    (∀ env price, env.currentContractAddress = self → getSharePrice T env s.world = .ok price → 0 < price) ∧
    (∀ amount, sharesToMint st (s.world.nav T self st) amount ≠ .error PoolError.invalidNav.trap) ∧
    ¬(s.world.nav T self st ≤ 0 ∨ st.totalShares ≤ 0)

/-- What a settlement leaves of the NAV is still worth one step of the price scale for each share. -/
def Ledger.SettlesWithin (s : Ledger τ) (i : Input) : Prop :=
  ∀ x ∈ i.settles?, ∀ st ∈ s.world.state?, 0 < st.totalShares →
    st.totalShares ≤ (s.world.nav T self st - min x.2 st.totalPrincipal) * priceScale

instance (s : Ledger τ) (i : Input) : Decidable (s.SettlesWithin T self i) :=
  inferInstanceAs (Decidable (∀ x ∈ i.settles?, ∀ st ∈ s.world.state?, _ → _))

end Statements

/-! ### Accounts with a positive price -/

namespace Accounts

/-- Each share has a price that is not rounded down to zero. -/
def Priced (a : Accounts) : Prop := 0 < a.shares → a.shares ≤ a.nav * priceScale

section Movements
variable {a : Accounts} {m : Movement}

theorem Priced.nav_pos (h : a.Priced) (hS : 0 < a.shares) : 0 < a.nav := by
  have hle : a.shares ≤ a.nav * priceScale := h hS
  exact (pos_iff_pos_of_mul_pos (Int.lt_of_lt_of_le hS hle)).mpr (by decide)

theorem Priced.deposit (h : a.Priced) (hsound : a.Sound) {amount : Int} (hallows : a.Allows (.deposit amount)) :
    (a.after (.deposit amount)).Priced := by
  intro _
  obtain ⟨hamount, hvalue⟩ := hallows
  have hnav : 0 ≤ a.nav := hsound.nav
  rcases Int.lt_or_eq_of_le hsound.shares with hS | hzero
  · have hN : 0 < a.fund.value := h.nav_pos hS
    have hworth : 0 ≤ (a.fund.payIn amount).value := Int.add_nonneg hnav (Int.le_of_lt hamount)
    have hle := (Fund.payIn_notDiluted (f := a.fund) (a := amount) hS hN).shares_le hN hworth (h hS)
    rw [nav_after]
    exact hle
  · have hminted : a.fund.minted amount = amount := if_pos hzero.symm
    have hscale : (1 : Int) ≤ priceScale := by decide
    rw [nav_after]
    show a.shares + a.fund.minted amount ≤ (a.nav + amount) * priceScale
    calc a.shares + a.fund.minted amount ≤ a.nav + amount := by omega
      _ ≤ (a.nav + amount) * priceScale := le_mul_of_one_le_right (by omega) hscale

theorem Priced.withdraw (h : a.Priced) {shares : Int} (hallows : a.Allows (.withdraw shares)) :
    (a.after (.withdraw shares)).Priced := by
  intro hleft
  obtain ⟨hpos, hle, hnav, -⟩ := hallows
  have hleft : shares < a.fund.shares := Int.sub_pos.mp hleft
  have hS : 0 < a.fund.shares := Int.lt_trans hpos hleft
  have hworth := Fund.payOut_value_pos (f := a.fund) hnav hS hleft
  have hshares := (Fund.payOut_notDiluted (f := a.fund) (b := shares) hS).shares_le hnav (Int.le_of_lt hworth) (h hS)
  rw [nav_after]
  exact hshares

/-- Only a settlement can take the price away. -/
theorem Priced.after_iff (h : a.Priced) (hsound : a.Sound) (hallows : a.Allows m) (hin : m.Incoming) :
    (a.after m).Priced ↔
      ∀ principal, m = .settle principal → 0 < a.shares → a.shares ≤ (a.nav - min principal a.principal) * priceScale := by
  have hrises : ∀ {n : Int}, 0 ≤ n → 0 < a.shares → a.shares ≤ (a.nav + n) * priceScale := fun hn hS =>
    Int.le_trans (h hS) (Int.mul_le_mul_of_nonneg_right (Int.le_add_of_nonneg_right hn) (by decide))
  cases m with
  | settle principal =>
    have hnav : (a.after (.settle principal)).nav = a.nav - min principal a.principal := nav_after a _
    unfold Priced
    rw [hnav]
    constructor
    · rintro hp _ ⟨⟩
      exact hp
    · exact fun hp => hp principal rfl
  | deposit amount => exact iff_of_true (h.deposit hsound hallows) nofun
  | withdraw shares => exact iff_of_true (h.withdraw hallows) nofun
  | buy advance ownSale =>
    refine iff_of_true (fun hS => ?_) nofun
    rw [nav_after]
    refine hrises ?_ hS
    show 0 ≤ if ownSale then advance else 0
    split
    · exact Int.le_of_lt hallows.1
    · exact Int.le_refl 0
  | receive amount =>
    refine iff_of_true (fun hS => ?_) nofun
    rw [nav_after]
    exact hrises hin hS
  | keep => exact iff_of_true h nofun

end Movements
end Accounts

/-! ### The pool's guards and its price -/

section Ledger
variable {τ : Type} {T : TokenContracts τ} {self : Address} {s t : Ledger τ} {i : Input} {st : PoolState}

/-- The number of shares fits in 128 bits. -/
def Ledger.SharesFit (s : Ledger τ) : Prop := ∀ st ∈ s.world.state?, st.totalShares ≤ I128.max

theorem Ledger.SharesFit.step (hF : s.SharesFit) (h : s.step T self i = .ok t) : t.SharesFit := by
  intro st' hst'
  cases Ledger.shares_step h hst' with
  | opened hzero =>
    rw [hzero]
    decide
  | same st hst heq => exact heq ▸ hF st hst
  | minted _ _ _ _ _ _ _ hfits => exact hfits
  | burned st shares hst hpos _ heq =>
    have hle := hF st hst
    omega

theorem getSharePrice_of_fits {env : Env} {w : World τ} (hst : w.state? = some st) (hS : 0 < st.totalShares)
    (hnav : 0 ≤ w.nav T env.currentContractAddress st)
    (hfits : w.nav T env.currentContractAddress st * priceScale ≤ I128.max) :
    getSharePrice T env w = .ok (w.nav T env.currentContractAddress st * priceScale / st.totalShares) := by
  have hload : loadState w.storage = .ok st := loadState_eq_ok.mpr hst
  have hprod : 0 ≤ w.nav T env.currentContractAddress st * priceScale := Int.mul_nonneg hnav (by decide)
  have hle : w.nav T env.currentContractAddress st ≤ I128.max :=
    Int.le_trans (le_mul_of_one_le_right hnav (by decide)) hfits
  have hquot : w.nav T env.currentContractAddress st * priceScale / st.totalShares ≤ I128.max :=
    Int.le_trans (Int.ediv_le_self _ hprod) hfits
  have hgetNav : getNav T env w = .ok (w.nav T env.currentContractAddress st) :=
    bind_eq_ok.mpr ⟨st, hload, I128.checked_of_le hnav hle⟩
  refine bind_eq_ok.mpr ⟨st, hload, ?_⟩
  rw [if_neg (by omega)]
  refine bind_eq_ok.mpr ⟨_, hgetNav, bind_eq_ok.mpr ⟨_, I128.checked_of_le hprod hfits, ?_⟩⟩
  unfold I128.div
  rw [if_neg (by omega), Int.tdiv_eq_ediv_of_nonneg hprod]
  exact I128.checked_of_le (Int.ediv_nonneg hprod (Int.le_of_lt hS)) hquot

theorem sharesToMint_ne_invalidNav {nav amount : Int} (hnav : 0 < nav) :
    sharesToMint st nav amount ≠ .error PoolError.invalidNav.trap := by
  unfold sharesToMint
  split
  · intro h
    cases h
  · have hguard : throwIf (nav ≤ 0) PoolError.invalidNav.trap = .ok () := throwIf_eq_ok.mpr (Int.not_le.mpr hnav)
    rw [hguard]
    show (I128.mul amount st.totalShares >>= fun p => I128.div p nav) ≠ _
    cases hmul : I128.mul amount st.totalShares with
    | ok p => exact I128.div_ne_error
    | error e =>
      rintro ⟨⟩
      exact I128.checked_ne_error hmul

theorem unbricked_iff_priced (hsound : (s.world.accounts T self st).Sound) (hfit : st.totalShares ≤ I128.max)
    (hst : s.world.state? = some st) : s.Unbricked T self ↔ (s.world.accounts T self st).Priced := by
  have hnav : 0 ≤ s.world.nav T self st := hsound.nav
  unfold Ledger.Unbricked
  rw [hst]
  constructor
  · intro hall hS
    obtain ⟨hpos, hprice, -⟩ := hall st rfl hS
    show st.totalShares ≤ s.world.nav T self st * priceScale
    by_cases hfits : s.world.nav T self st * priceScale ≤ I128.max
    · let env : Env := ⟨self, fun _ => false, 0⟩
      have hquot : 1 ≤ s.world.nav T self st * priceScale / st.totalShares :=
        hprice env _ rfl (getSharePrice_of_fits hst hS hnav hfits)
      have hle : 1 * st.totalShares ≤ s.world.nav T self st * priceScale := (Int.le_ediv_iff_mul_le hS).mp hquot
      omega
    · -- A price that does not fit is far above one step.
      omega
  · rintro hpriced _ ⟨⟩ hS
    have hpos : 0 < s.world.nav T self st := hpriced.nav_pos hS
    have hle : st.totalShares ≤ s.world.nav T self st * priceScale := hpriced hS
    refine ⟨hpos, fun env price hself hprice => ?_, fun amount herror => ?_, by omega⟩
    · obtain ⟨st', hst', hprice⟩ := getSharePrice_inv hprice
      rw [hst] at hst'
      cases hst'
      rcases hprice with ⟨hzero, -⟩ | ⟨-, rfl⟩
      · omega
      · rw [hself, Int.tdiv_eq_ediv_of_nonneg (by omega)]
        exact (Int.le_ediv_iff_mul_le hS).mpr (by omega)
    · exact sharesToMint_ne_invalidNav hpos herror

theorem Input.movement_eq_settle {asset : Address} {principal : Int} :
    i.movement self asset = .settle principal ↔ ∃ hash, i.settles? = some (hash, principal) := by
  cases i with
  | token auth call => exact ⟨nofun, nofun⟩
  | repay auth payer hash amount => exact ⟨nofun, nofun⟩
  | invoke inv =>
    obtain ⟨auth, timestamp, call⟩ := inv
    cases call with
    | settleInvoiceInPool operator hash p =>
      constructor
      · rintro ⟨⟩
        exact ⟨hash, rfl⟩
      · rintro ⟨hash', ⟨⟩⟩
        rfl
    | initializePool | deposit | withdraw | buyTokenizedInvoice | pause | unpause | setOperator =>
      refine ⟨nofun, fun ⟨_, h⟩ => ?_⟩
      cases h

theorem settlesWithin_iff (hst : s.world.state? = some st) : s.SettlesWithin T self i ↔
    ∀ principal, i.movement self st.assetAddress = .settle principal → 0 < (s.world.accounts T self st).shares →
      (s.world.accounts T self st).shares ≤
        ((s.world.accounts T self st).nav - min principal (s.world.accounts T self st).principal) * priceScale := by
  unfold Ledger.SettlesWithin
  rw [hst]
  constructor
  · intro hall principal hm
    obtain ⟨hash, hi⟩ := Input.movement_eq_settle.mp hm
    exact hall (hash, principal) hi st rfl
  · rintro hall x hx _ ⟨⟩
    exact hall x.2 (Input.movement_eq_settle.mpr ⟨x.1, hx⟩)

theorem Ledger.unbricked_step_iff (hT : T.Honest) (hS : s.Sound T self) (hF : s.SharesFit) (hothers : i.ByOthers self)
    (hU : s.Unbricked T self) (h : s.step T self i = .ok t) : t.Unbricked T self ↔ s.SettlesWithin T self i := by
  cases hst : s.world.state? with
  | none =>
    refine iff_of_true (fun st' hst' hpos => ?_) fun x hx st hst' => ?_
    · rcases Ledger.step_opened hT.toExact hothers hst h with ⟨_, _, _, hnone, -⟩ | ⟨st, hst'', -, -, hzero⟩
      · rw [hnone] at hst'
        cases hst'
      · rw [hst''] at hst'
        cases hst'
        omega
    · rw [hst] at hst'
      cases hst'
  | some st =>
    have hsound := hS.accounts st hst
    obtain ⟨hallows, st', hst', -, hafter⟩ := Ledger.step_moved hT.toExact hothers hst hsound.shares h
    have hpriced := (unbricked_iff_priced hsound (hF st hst) hst).mp hU
    rw [unbricked_iff_priced ((hS.step hT hothers h).accounts st' hst') (hF.step h st' hst') hst', hafter,
      settlesWithin_iff hst]
    exact hpriced.after_iff hsound hallows (Ledger.step_incoming hT h _)

end Ledger

/-- In every run by others than the pool, the pool is never bricked exactly if no settlement takes off more principal
    than the shares' price can lose. -/
theorem unbricked_iff_settles_within {τ : Type} {T : TokenContracts τ} (hT : T.Honest) (pool : Address) (tokens : τ)
    (hcash : ∀ a, 0 ≤ T.balance tokens a pool) (is : List Input) (hothers : ∀ i ∈ is, i.ByOthers pool) :
    Throughout (Ledger.step T pool) (Ledger.Unbricked T pool) (.deployed tokens) is ↔
      Along (Ledger.step T pool) (fun s i => ∀ t, s.step T pool i = .ok t → s.SettlesWithin T pool i)
        (.deployed tokens) is :=
  throughout_iff_along_of_forall (I := fun s => s.Sound T pool ∧ s.SharesFit)
    (fun _ _ _ hi hI h => ⟨hI.1.step hT hi h, hI.2.step h⟩)
    (fun _ _ _ hi hI hU h => Ledger.unbricked_step_iff hT hI.1 hI.2 hi hU h) hothers
    ⟨Ledger.sound_deployed hcash, nofun⟩ nofun

section Examples
open Deployment

/-- All the cash goes into an invoice, which is settled although nobody repaid it. -/
def brickingRun : List Input := [initializes, deposits investor 100, buys 1 100, settles 1 100]

/-- The pool has 100 shares and nothing else, and refuses deposits and withdrawals. -/
theorem settling_bricks_pool :
    ¬Throughout (Ledger.step mockBrlt pool) (Ledger.Unbricked mockBrlt pool) ledger brickingRun ∧
      ∀ i ∈ [deposits bystander 10, withdraws investor 100],
        (run (Ledger.step mockBrlt pool) ledger brickingRun).step mockBrlt pool i = .error PoolError.invalidNav.trap := by
  constructor
  · intro h
    obtain ⟨hnav, -⟩ := h.last _ rfl (by decide)
    exact absurd hnav (by decide)
  · intro i hi
    rcases List.mem_pair.mp hi with rfl | rfl <;> rfl

theorem unbricked_iff_settles_within_repaid :
    Throughout (Ledger.step mockBrlt pool) (Ledger.Unbricked mockBrlt pool) ledger
      [initializes, deposits investor 100, buys 1 60, repays 1 70, settles 1 60, withdraws investor 50] :=
  (unbricked_iff_settles_within mockBrlt_honest pool tokens tokens_nonneg _ (by decide)).mpr
    (Along.mono (Q := Ledger.SettlesWithin mockBrlt pool) (by decide) fun _ _ h _ _ => h)

end Examples
end CredBridge.Contracts.LiquidityPool
