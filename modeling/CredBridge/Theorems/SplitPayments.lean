import CredBridge.Theorems.ShareValue

/-! # Splitting never pays

Each deposit and each withdrawal rounds against the one who makes it, so the next one meets shares that are worth at
least as much. What several deposits mint together, and what several withdrawals are paid together, is then bounded by
the one that would have done it at once. -/

namespace CredBridge.Contracts.LiquidityPool
open Result Machine

/-- Deposits of the amounts, one after the other, by whoever. -/
def Deposits (amounts : List Int) (invs : List Invocation) : Prop :=
  List.Forall₂ (fun amount inv => ∃ investor, inv.call = .deposit investor amount) amounts invs

def Withdrawals (shares : List Int) (invs : List Invocation) : Prop :=
  List.Forall₂ (fun shares inv => ∃ investor, inv.call = .withdraw investor shares) shares invs

/-- The state is as it was but for the number of shares, and the pool has become the fund. -/
structure Moved {τ : Type} (T : TokenContracts τ) (pool : Address) (st : PoolState) (g : Fund) (w' : World τ) : Prop where
  state : w'.state? = some { st with totalShares := g.shares }
  fund : w'.fund? T pool = some g

section Splitting
variable {τ : Type} {T : TokenContracts τ} {self : Address} {w w' : World τ} {inv : Invocation} {st : PoolState}
  {f g : Fund} {amounts shares : List Int} {invs : List Invocation}

theorem Moved.start (hst : w.state? = some st) : Moved T self st ⟨w.nav T self st, st.totalShares⟩ w :=
  ⟨hst, fund?_of_state? hst⟩

theorem Moved.nav (h : Moved T self st g w) : w.nav T self { st with totalShares := g.shares } = g.value := by
  have hfund : w.fund? T self = some ⟨w.nav T self { st with totalShares := g.shares }, g.shares⟩ := fund?_of_state? h.state
  rw [h.fund] at hfund
  exact congrArg Fund.value (Option.some.inj hfund).symm

theorem ne_self_of_auth {investor : Address} (hsigned : inv.auth self = false) (hauth : inv.auth investor = true) :
    investor ≠ self := by
  rintro rfl
  simp [hsigned] at hauth

theorem Moved.deposit (hT : T.Exact) (hsigned : inv.auth self = false) {investor : Address} {amount : Int}
    (hcall : inv.call = .deposit investor amount) (hw : Moved T self st f w) (h : invoke T self w inv = .ok w')
    (hS : 0 ≤ f.shares) : Moved T self st (f.payIn amount) w' ∧ 0 < amount := by
  obtain ⟨auth, timestamp, call⟩ := inv
  subst hcall
  obtain ⟨_, hauth, -⟩ := bind_eq_ok.mp h
  have hself : investor ≠ self := @ne_self_of_auth self ⟨auth, timestamp, _⟩ investor hsigned (requireAuth_eq_ok.mp hauth)
  obtain ⟨hfund, hamount, -⟩ := deposit_fund hT ⟨self, auth, timestamp⟩ hself h hw.fund hS
  obtain ⟨st₀, minted, hst₀, -, -, hst', -, -⟩ := deposit_accounts hT hself h
  cases hst₀.symm.trans hw.state
  have hshares := congrArg Fund.shares (Option.some.inj (hfund.symm.trans (fund?_of_state? hst')))
  exact ⟨⟨hst'.trans (by rw [hshares]), hfund⟩, hamount⟩

theorem Moved.withdraw (hT : T.Exact) (hsigned : inv.auth self = false) {investor : Address} {shares : Int}
    (hcall : inv.call = .withdraw investor shares) (hw : Moved T self st f w) (h : invoke T self w inv = .ok w') :
    Moved T self st (f.payOut shares) w' ∧ 0 < shares ∧ shares ≤ f.shares := by
  obtain ⟨auth, timestamp, call⟩ := inv
  subst hcall
  obtain ⟨_, hauth, -⟩ := bind_eq_ok.mp h
  have hself : investor ≠ self := @ne_self_of_auth self ⟨auth, timestamp, _⟩ investor hsigned (requireAuth_eq_ok.mp hauth)
  obtain ⟨hfund, hle⟩ := withdraw_fund hT ⟨self, auth, timestamp⟩ hself h hw.fund
  obtain ⟨st₀, hst₀, hpos, -, -, hst', -, -⟩ := withdraw_accounts hT hself h
  cases hst₀.symm.trans hw.state
  exact ⟨⟨hst', hfund⟩, hpos, hle⟩

/-- Deposits that all succeed pay into the fund one after the other. -/
theorem Moved.deposits (hT : T.Exact) (hsigned : ∀ inv ∈ invs, inv.auth self = false) (hinvs : Deposits amounts invs)
    (hw : Moved T self st f w) (h : invs.foldlM (invoke T self) w = .ok w') (hS : 0 < f.shares) (hN : 0 < f.value) :
    Moved T self st (amounts.foldl Fund.payIn f) w' ∧ ∀ a ∈ amounts, 0 ≤ a := by
  unfold Deposits at hinvs
  induction hinvs generalizing w f with
  | nil =>
    cases pure_eq_ok.mp h
    exact ⟨hw, List.forall_mem_nil _⟩
  | cons hcall _ ih =>
    obtain ⟨w₁, hinvoke, h⟩ := bind_eq_ok.mp h
    obtain ⟨investor, hcall⟩ := hcall
    simp only [List.forall_mem_cons] at hsigned ⊢
    obtain ⟨hw₁, hamount⟩ := hw.deposit hT hsigned.1 hcall hinvoke (Int.le_of_lt hS)
    obtain ⟨hw', hpos⟩ := ih hsigned.2 hw₁ h (Fund.payIn_shares_pos hS hN (Int.le_of_lt hamount)) (Int.add_pos hN hamount)
    exact ⟨hw', Int.le_of_lt hamount, hpos⟩

theorem Moved.withdrawals (hT : T.Exact) (hsigned : ∀ inv ∈ invs, inv.auth self = false)
    (hinvs : Withdrawals shares invs) (hw : Moved T self st f w) (h : invs.foldlM (invoke T self) w = .ok w')
    (hS : 0 ≤ f.shares) :
    Moved T self st (shares.foldl Fund.payOut f) w' ∧ (∀ b ∈ shares, 0 < b) ∧ shares.sum ≤ f.shares := by
  unfold Withdrawals at hinvs
  induction hinvs generalizing w f with
  | nil =>
    cases pure_eq_ok.mp h
    exact ⟨hw, List.forall_mem_nil _, hS⟩
  | cons hcall _ ih =>
    obtain ⟨w₁, hinvoke, h⟩ := bind_eq_ok.mp h
    obtain ⟨investor, hcall⟩ := hcall
    simp only [List.forall_mem_cons] at hsigned ⊢
    obtain ⟨hw₁, hpos, hle⟩ := hw.withdraw hT hsigned.1 hcall hinvoke
    obtain ⟨hw', hall, hsum⟩ := ih hsigned.2 hw₁ h (Int.sub_nonneg.mpr hle)
    refine ⟨hw', ⟨hpos, hall⟩, ?_⟩
    simp only [List.sum_cons, Fund.payOut] at hsum ⊢
    omega

/-- What leaves the pool's cash leaves its value. -/
theorem Moved.cash (h : Moved T self st g w') :
    w.cash T self st - w'.cash T self { st with totalShares := g.shares } = w.nav T self st - g.value := by
  rw [← h.nav]
  simp only [World.nav]
  omega

end Splitting

/-- Deposits that all succeed mint together no more shares than one deposit of their sum, which mints its part of the
    value; withdrawals that all succeed are paid together no more BRLT than one withdrawal of their sum, which is paid
    its part of the shares. -/
theorem splitting_never_pays {τ : Type} {T : TokenContracts τ} (hT : T.Exact) (pool : Address) (w : World τ)
    (st : PoolState) (hst : w.state? = some st) (hS : 0 < st.totalShares) (hN : 0 < w.nav T pool st)
    (invs : List Invocation) (hsigned : ∀ inv ∈ invs, inv.auth pool = false) (w' : World τ)
    (h : invs.foldlM (invoke T pool) w = .ok w') :
    (∀ amounts, Deposits amounts invs → ∃ st' ∈ w'.state?,
      st'.totalShares - st.totalShares ≤ amounts.sum * st.totalShares / w.nav T pool st ∧
      ∀ a, amounts = [a] → st'.totalShares - st.totalShares = a * st.totalShares / w.nav T pool st) ∧
    ∀ shares, Withdrawals shares invs → ∃ st' ∈ w'.state?,
      w.cash T pool st - w'.cash T pool st' ≤ shares.sum * w.nav T pool st / st.totalShares ∧
      ∀ s, shares = [s] → w.cash T pool st - w'.cash T pool st' = s * w.nav T pool st / st.totalShares := by
  have hstart : Moved T pool st ⟨w.nav T pool st, st.totalShares⟩ w := .start hst
  constructor
  · intro amounts hdeposits
    obtain ⟨hmoved, hpos⟩ := hstart.deposits hT hsigned hdeposits h hS hN
    have hminted : ∀ a, Fund.minted ⟨w.nav T pool st, st.totalShares⟩ a = a * st.totalShares / w.nav T pool st :=
      fun _ => if_neg (Int.ne_of_gt hS)
    refine ⟨_, hmoved.state, ?_, ?_⟩
    · rw [← hminted]
      exact Fund.foldl_payIn_shares_le hS hN hpos
    · rintro a rfl
      rw [← hminted]
      simp only [List.foldl_cons, List.foldl_nil, Fund.payIn]
      omega
  · intro shares hwithdrawals
    obtain ⟨hmoved, hpos, hle⟩ := hstart.withdrawals hT hsigned hwithdrawals h (Int.le_of_lt hS)
    refine ⟨_, hmoved.state, ?_, ?_⟩
    · rw [hmoved.cash]
      exact Fund.foldl_payOut_value_le (f := ⟨w.nav T pool st, st.totalShares⟩) hS hpos hle
    · rintro s rfl
      rw [hmoved.cash]
      simp only [List.foldl_cons, List.foldl_nil, Fund.payOut, Fund.redeemable]
      omega

section Witness
open Deployment

/-- A pool of 30 shares that are worth 50 BRLT. -/
def gaining : World MockBrltTokens :=
  (run (Ledger.step mockBrlt pool) ledger [initializes, deposits investor 30, repays 1 20]).world

def gainingState : PoolState := ⟨admin, operator, brlt, shareToken, 0, 30, false⟩

/-- Deposits of 4 and of 3 mint two shares and one, and a deposit of 7 would mint four. -/
theorem splitting_never_pays_three_for_four :
    ∃ w', [(⟨signedBy bystander, 0, .deposit bystander 4⟩ : Invocation),
        ⟨signedBy bystander, 0, .deposit bystander 3⟩].foldlM (invoke mockBrlt pool) gaining = .ok w' ∧
      ∃ st' ∈ w'.state?, st'.totalShares - 30 ≤ 7 * 30 / 50 := by
  refine ⟨_, rfl, ?_⟩
  obtain ⟨st', hst', hle, -⟩ := (splitting_never_pays mockBrlt_exact pool gaining gainingState (by decide) (by decide)
    (by decide) [⟨signedBy bystander, 0, .deposit bystander 4⟩, ⟨signedBy bystander, 0, .deposit bystander 3⟩] (by decide)
    _ rfl).1 [4, 3] (.cons ⟨_, rfl⟩ (.cons ⟨_, rfl⟩ .nil))
  exact ⟨st', hst', hle⟩

end Witness
end CredBridge.Contracts.LiquidityPool
