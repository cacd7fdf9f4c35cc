import CredBridge.Contracts.PoolRuns
import CredBridge.Lib.ProRata

/-! # The value of a share

The pool is a pro rata fund: its value is the BRLT it holds and the principal it has out, and its shares
divide it. A deposit pays into that fund and a withdrawal pays out of it, so neither dilutes the shares of
anyone else: over any run of deposits and withdrawals by investors, what a bystander could redeem does not
fall while there are shares. -/

namespace CredBridge.Contracts.LiquidityPool
open Result Machine

section Fund
variable {τ : Type} (T : TokenContracts τ) (self : Address)

def World.fund? (w : World τ) : Option Fund := w.state?.map fun st => ⟨w.nav T self st, st.totalShares⟩

/-- A deposit or a withdrawal by an investor other than the pool itself. -/
def Call.ByInvestor : Call → Prop
  | .deposit investor _ => investor ≠ self
  | .withdraw investor _ => investor ≠ self
  | _ => False

/-- There are shares. -/
def World.HasShares (w : World τ) : Prop := ∃ f ∈ w.fund? T self, 0 < f.shares

instance : DecidablePred (World.HasShares T self) := fun w =>
  inferInstanceAs (Decidable (∃ f ∈ w.fund? T self, 0 < f.shares))

end Fund

section Refinement
variable {τ : Type} {T : TokenContracts τ} {self : Address} {w w' : World τ} {st st' : PoolState}

theorem fund?_of_state? (h : w.state? = some st) : w.fund? T self = some ⟨w.nav T self st, st.totalShares⟩ := by
  unfold World.fund?
  rw [h]
  rfl

theorem state?_of_fund? {f : Fund} (h : w.fund? T self = some f) :
    ∃ st, w.state? = some st ∧ f = ⟨w.nav T self st, st.totalShares⟩ := by
  obtain ⟨st, hst, hf⟩ := Option.map_eq_some_iff.mp h
  exact ⟨st, hst, hf.symm⟩

theorem sharesToMint_eq_minted {nav amount shares : Int} (hshares : sharesToMint st nav amount = .ok shares)
    (hamount : 0 < amount) (hS : 0 ≤ st.totalShares) : shares = Fund.minted ⟨nav, st.totalShares⟩ amount := by
  unfold Fund.minted
  rcases sharesToMint_inv hshares with ⟨hzero, rfl⟩ | ⟨hne, -, rfl⟩
  · exact (if_pos hzero).symm
  · rw [if_neg hne]
    exact Int.tdiv_eq_ediv_of_nonneg (Int.mul_nonneg (Int.le_of_lt hamount) hS)

theorem deposit_fund (hT : T.Exact) (env : Env) {investor : Address} {amount : Int} {f : Fund}
    (hself : investor ≠ env.currentContractAddress) (h : deposit T env w investor amount = .ok w')
    (hf : w.fund? T env.currentContractAddress = some f) (hS : 0 ≤ f.shares) :
    w'.fund? T env.currentContractAddress = some (f.payIn amount) ∧ 0 < amount ∧ (0 < f.value ∨ f.shares = 0) := by
  obtain ⟨st, shares, hst, hamount, hshares, hst', -, hcash⟩ := deposit_accounts hT hself h
  rw [fund?_of_state? hst] at hf
  cases hf
  have hminted := sharesToMint_eq_minted hshares hamount hS
  refine ⟨?_, hamount, ?_⟩
  · rw [fund?_of_state? hst', hminted]
    unfold World.nav World.cash Fund.payIn
    rw [hcash]
    unfold World.cash
    simp only [Option.some.injEq, Fund.mk.injEq, and_true]
    omega
  · rcases sharesToMint_inv hshares with ⟨hzero, -⟩ | ⟨-, hnav, -⟩
    · exact .inr hzero
    · exact .inl hnav

theorem withdraw_fund (hT : T.Exact) (env : Env) {investor : Address} {shares : Int} {f : Fund}
    (hself : investor ≠ env.currentContractAddress) (h : withdraw T env w investor shares = .ok w')
    (hf : w.fund? T env.currentContractAddress = some f) :
    w'.fund? T env.currentContractAddress = some (f.payOut shares) ∧ shares ≤ f.shares := by
  obtain ⟨st, hst, hpos, hle, hnav, hst', -, hcash⟩ := withdraw_accounts hT hself h
  rw [fund?_of_state? hst] at hf
  cases hf
  refine ⟨?_, hle⟩
  rw [fund?_of_state? hst']
  unfold Fund.payOut Fund.redeemable
  simp only [Option.some.injEq, Fund.mk.injEq, and_true]
  show T.balance w'.tokens st.assetAddress env.currentContractAddress + st.totalPrincipal = _
  rw [hcash]
  show w.cash T env.currentContractAddress st - _ + st.totalPrincipal =
    (w.cash T env.currentContractAddress st + st.totalPrincipal) - _
  omega

theorem invoke_notDiluted (hT : T.Exact) {inv : Invocation} {f : Fund} (hcall : inv.call.ByInvestor self)
    (h : invoke T self w inv = .ok w') (hf : w.fund? T self = some f) (hS : 0 < f.shares) :
    ∃ g, w'.fund? T self = some g ∧ f.NotDiluted g := by
  obtain ⟨auth, timestamp, call⟩ := inv
  cases call with
  | deposit investor amount =>
    obtain ⟨hf', -, hvalue⟩ := deposit_fund hT ⟨self, auth, timestamp⟩ hcall h hf (Int.le_of_lt hS)
    exact ⟨_, hf', Fund.payIn_notDiluted hS (hvalue.resolve_right (Int.ne_of_gt hS))⟩
  | withdraw investor shares =>
    obtain ⟨hf', -⟩ := withdraw_fund hT ⟨self, auth, timestamp⟩ hcall h hf
    exact ⟨_, hf', Fund.payOut_notDiluted hS⟩
  | _ => exact absurd hcall id

/-- Over a run of deposits and withdrawals that never burns the last share, what `s` shares can be redeemed
    for does not fall. -/
theorem run_redeemable_le (hT : T.Exact) {invs : List Invocation} (hcalls : ∀ inv ∈ invs, inv.call.ByInvestor self)
    (hshares : Throughout (invoke T self) (World.HasShares T self) w invs) {f : Fund}
    (hf : w.fund? T self = some f) {s : Int} (hs : 0 ≤ s) :
    ∃ g, (run (invoke T self) w invs).fund? T self = some g ∧ f.redeemable s ≤ g.redeemable s := by
  induction invs generalizing w f with
  | nil => exact ⟨f, hf, Int.le_refl _⟩
  | cons inv invs ih =>
    have hhead : World.HasShares T self w := hshares.1
    have htail := hshares.2
    obtain ⟨g, hg, hgpos⟩ : World.HasShares T self (next (invoke T self) w inv) := htail.head
    obtain ⟨f₀, hf₀, hfpos⟩ := hhead
    rw [hf] at hf₀
    cases hf₀
    have hle : f.redeemable s ≤ g.redeemable s := by
      rcases next_cases (invoke T self) w inv with h | h
      · obtain ⟨g', hg', hnd⟩ := invoke_notDiluted hT (hcalls inv List.mem_cons_self) h hf hfpos
        rw [hg] at hg'
        cases hg'
        exact hnd.redeemable_le hfpos hgpos hs
      · rw [h, hf] at hg
        cases hg
        exact Int.le_refl _
    obtain ⟨g', hg', hle'⟩ := ih (fun i hi => hcalls i (List.mem_cons_of_mem _ hi)) htail hg
    exact ⟨g', hg', Int.le_trans hle hle'⟩

end Refinement

/-- Share value is never diluted: a deposit or a withdrawal by an investor other than the pool leaves each
    share with at least its value, and over every run of them the amount that a bystander's shares could be
    redeemed for never falls while there are shares. -/
theorem share_value_never_diluted {τ : Type} {T : TokenContracts τ} (hT : T.Exact) (self : Address) (w : World τ) :
    (∀ inv w' st st', inv.call.ByInvestor self → invoke T self w inv = .ok w' → w.state? = some st →
      w'.state? = some st' → 0 < st.totalShares →
      w'.nav T self st' * st.totalShares ≥ w.nav T self st * st'.totalShares) ∧
    ∀ invs, (∀ inv ∈ invs, inv.call.ByInvestor self) →
      Throughout (invoke T self) (World.HasShares T self) w invs → ∀ s, 0 ≤ s → ∀ f g, w.fund? T self = some f →
      (run (invoke T self) w invs).fund? T self = some g → f.redeemable s ≤ g.redeemable s := by
  constructor
  · intro inv w' st st' hcall h hst hst' hS
    obtain ⟨g, hg, hnd⟩ := invoke_notDiluted hT hcall h (fund?_of_state? hst) hS
    rw [fund?_of_state? hst'] at hg
    cases hg
    exact hnd
  · intro invs hcalls hshares s hs f g hf hg
    obtain ⟨g', hg', hle⟩ := run_redeemable_le hT hcalls hshares hf hs
    rw [hg] at hg'
    cases hg'
    exact hle

section Witness
open Deployment

def pooled : World MockBrltTokens :=
  (run (Ledger.step mockBrlt pool) ledger [initializes, deposits investor 100, repays 1 50]).world

theorem share_value_never_diluted_pooled : Fund.redeemable ⟨150, 100⟩ 30 ≤ Fund.redeemable ⟨111, 73⟩ 30 :=
  (share_value_never_diluted mockBrlt_exact pool pooled).2
    [⟨signedBy bystander, 0, .deposit bystander 10⟩, ⟨signedBy investor, 0, .withdraw investor 33⟩]
    (by
      intro inv h
      rcases List.mem_pair.mp h with rfl | rfl
      · exact (by decide : bystander ≠ pool)
      · exact (by decide : investor ≠ pool))
    (by decide) 30 (by decide) _ _ (by decide) (by decide)

end Witness
end CredBridge.Contracts.LiquidityPool
