import CredBridge.Theorems.PoolAccounts

/-! # Fair deposits

A deposit is fair when it mints a share at least and when these shares, given back at once, are worth no more
than was paid. Both fail where the pool's value and its shares have come apart: a value so high that the
amount buys less than one share is rounded down to none, and in a pool without shares the first deposit takes
over whatever value is there. -/

namespace CredBridge.Contracts.LiquidityPool
open Result Machine

section Statements
variable {τ : Type} (T : TokenContracts τ) (self : Address)

/-- What `withdraw` pays for some shares. -/
def World.brltToReturn (w : World τ) (st : PoolState) (shares : Int) : Int :=
  (shares * w.nav T self st).tdiv st.totalShares

/-- A deposit that led from `w` to `w'` minted at least one share, and what it minted is redeemed for no more than
    was paid. -/
def FairDeposit (w w' : World τ) (amount : Int) : Prop :=
  ∀ st ∈ w.state?, ∀ st' ∈ w'.state?, 1 ≤ st'.totalShares - st.totalShares ∧
    w'.brltToReturn T self st' (st'.totalShares - st.totalShares) ≤ amount

/-- The amount is worth a share, or there are no shares and nothing that the first ones would take over. -/
def World.BuysShares (w : World τ) (amount : Int) : Prop :=
  ∀ st ∈ w.state?, if st.totalShares = 0 then w.nav T self st ≤ 0 else w.nav T self st ≤ amount * st.totalShares

instance (w w' : World τ) (amount : Int) : Decidable (FairDeposit T self w w' amount) :=
  inferInstanceAs (Decidable (∀ st ∈ w.state?, ∀ st' ∈ w'.state?, _ ∧ _))

end Statements

section Shares
variable {τ : Type} {T : TokenContracts τ} {self : Address} {s t : Ledger τ}

def Ledger.SharesNonneg (s : Ledger τ) : Prop := ∀ st ∈ s.world.state?, 0 ≤ st.totalShares

theorem sharesToMint_nonneg {st : PoolState} {nav amount shares : Int} (h : sharesToMint st nav amount = .ok shares)
    (hamount : 0 < amount) (hS : 0 ≤ st.totalShares) : 0 ≤ shares := by
  rcases sharesToMint_inv h with ⟨-, rfl⟩ | ⟨-, hnav, rfl⟩
  · exact Int.le_of_lt hamount
  · exact Int.tdiv_nonneg (Int.mul_nonneg (Int.le_of_lt hamount) hS) (Int.le_of_lt hnav)

theorem Ledger.SharesNonneg.step (hS : s.SharesNonneg) {i : Input} (h : s.step T self i = .ok t) : t.SharesNonneg := by
  intro st' hst'
  cases Ledger.shares_step h hst' with
  | opened hzero => exact Int.le_of_eq hzero.symm
  | same st hst heq => exact heq ▸ hS st hst
  | minted st amount shares hst hamount hshares heq _ =>
    rw [heq]
    exact Int.add_nonneg (hS st hst) (sharesToMint_nonneg hshares hamount (hS st hst))
  | burned st shares hst _ hle heq =>
    rw [heq]
    exact Int.sub_nonneg.mpr hle

theorem deposit_auth {env : Env} {w w' : World τ} {investor : Address} {amount : Int}
    (h : deposit T env w investor amount = .ok w') : env.auth investor = true := by
  obtain ⟨_, hauth, -⟩ := bind_eq_ok.mp h
  exact requireAuth_eq_ok.mp hauth

/-- A withdrawal pays what `brltToReturn` says. -/
theorem withdraw_pays (hT : T.Exact) {env : Env} {w w' : World τ} {st : PoolState} {investor : Address} {shares : Int}
    (hself : investor ≠ env.currentContractAddress) (hst : w.state? = some st)
    (h : withdraw T env w investor shares = .ok w') :
    T.balance w'.tokens st.assetAddress env.currentContractAddress =
      w.cash T env.currentContractAddress st - w.brltToReturn T env.currentContractAddress st shares := by
  obtain ⟨st₁, hst₁, hpos, -, hnav, -, -, hcash⟩ := withdraw_accounts hT hself h
  rw [hst] at hst₁
  cases hst₁
  rw [hcash]
  unfold World.brltToReturn
  rw [Int.tdiv_eq_ediv_of_nonneg (Int.mul_nonneg (Int.le_of_lt hpos) (Int.le_of_lt hnav))]

/-- A fund is paid into fairly exactly if its value does not exceed what the amount buys a share of. -/
theorem fund_fair_iff {f : Fund} {amount : Int} (hamount : 0 < amount) (hS : 0 ≤ f.shares)
    (hvalue : 0 < f.value ∨ f.shares = 0) :
    (1 ≤ f.minted amount ∧ (f.payIn amount).redeemable (f.minted amount) ≤ amount) ↔
      if f.shares = 0 then f.value ≤ 0 else f.value ≤ amount * f.shares := by
  by_cases hzero : f.shares = 0
  · have hminted : f.minted amount = amount := if_pos hzero
    rw [if_pos hzero, Fund.redeemable_first hzero hamount, hminted]
    omega
  · have hpos : 0 < f.shares := by omega
    have hN : 0 < f.value := hvalue.resolve_right hzero
    rw [if_neg hzero, ← Fund.one_le_minted_iff hpos hN]
    exact and_iff_left (Fund.redeemable_minted_le hpos hN (Int.le_of_lt hamount))

/-- The quotient that is truncated is the one that is rounded down. -/
theorem payIn_tdiv {f : Fund} {amount : Int} (hamount : 0 < amount) (hS : 0 ≤ f.shares)
    (hvalue : 0 < f.value ∨ f.shares = 0) :
    (f.minted amount * (f.payIn amount).value).tdiv (f.payIn amount).shares =
      (f.payIn amount).redeemable (f.minted amount) := by
  rcases hvalue with hN | hzero
  · have hnonneg : 0 ≤ f.minted amount := Fund.minted_nonneg (.inl hN) hS (Int.le_of_lt hamount)
    exact Int.tdiv_eq_ediv_of_nonneg (Int.mul_nonneg hnonneg (Int.add_nonneg (Int.le_of_lt hN) (Int.le_of_lt hamount)))
  · have hminted : f.minted amount = amount := if_pos hzero
    have hshares : (f.payIn amount).shares = amount := by
      show f.shares + f.minted amount = amount
      rw [hzero, hminted, Int.zero_add]
    rw [Fund.redeemable_first hzero hamount, hminted, hshares]
    exact Int.mul_tdiv_cancel_left _ (Int.ne_of_gt hamount)

theorem deposit_fair_iff_buysShares (hT : T.Exact) {env : Env} {w w' : World τ} {investor : Address} {amount : Int}
    (hself : investor ≠ env.currentContractAddress) (hS : ∀ st ∈ w.state?, 0 ≤ st.totalShares)
    (h : deposit T env w investor amount = .ok w') :
    FairDeposit T env.currentContractAddress w w' amount ↔ w.BuysShares T env.currentContractAddress amount := by
  obtain ⟨st, shares, -, hst, -⟩ := deposit_inv h
  let f : Fund := ⟨w.nav T env.currentContractAddress st, st.totalShares⟩
  obtain ⟨hf', hamount, hvalue⟩ := deposit_fund (f := f) hT env hself h (fund?_of_state? hst) (hS st hst)
  obtain ⟨st', hst', hpaid⟩ := state?_of_fund? hf'
  have hnav : w'.nav T env.currentContractAddress st' = (f.payIn amount).value := (congrArg Fund.value hpaid).symm
  have hshares : st'.totalShares = (f.payIn amount).shares := (congrArg Fund.shares hpaid).symm
  have hminted : st'.totalShares - st.totalShares = f.minted amount := by
    rw [hshares]
    show st.totalShares + f.minted amount - st.totalShares = f.minted amount
    omega
  have hreturn : w'.brltToReturn T env.currentContractAddress st' (st'.totalShares - st.totalShares) =
      (f.payIn amount).redeemable (f.minted amount) := by
    unfold World.brltToReturn
    rw [hminted, hnav, hshares]
    exact payIn_tdiv hamount (hS st hst) hvalue
  have hfair : FairDeposit T env.currentContractAddress w w' amount ↔
      1 ≤ f.minted amount ∧ (f.payIn amount).redeemable (f.minted amount) ≤ amount := by
    unfold FairDeposit
    rw [hst, hst', ← hreturn, ← hminted]
    exact ⟨fun hall => hall st rfl st' rfl, fun hp _ h₁ _ h₂ => by cases h₁; cases h₂; exact hp⟩
  have hbuys : w.BuysShares T env.currentContractAddress amount ↔
      if f.shares = 0 then f.value ≤ 0 else f.value ≤ amount * f.shares := by
    unfold World.BuysShares
    rw [hst]
    exact ⟨fun hall => hall st rfl, fun hp _ h₁ => by cases h₁; exact hp⟩
  rw [hfair, hbuys]
  exact fund_fair_iff hamount (hS st hst) hvalue

end Shares

/-- In every state that a run reaches, a deposit is fair exactly if its amount buys a share of what is there; and what
    is then paid for the shares, when they are withdrawn, is what fairness bounds. -/
theorem deposit_fair_iff {τ : Type} {T : TokenContracts τ} (hT : T.Exact) (pool : Address) (tokens : τ)
    (is : List Input) (auth : Address → Bool) (hsigned : auth pool = false) (timestamp : Nat) (investor : Address)
    (amount : Int) (t : Ledger τ)
    (h : (run (Ledger.step T pool) (.deployed tokens) is).step T pool
      (.invoke ⟨auth, timestamp, .deposit investor amount⟩) = .ok t) :
    let w := (run (Ledger.step T pool) (.deployed tokens) is).world
    (FairDeposit T pool w t.world amount ↔ w.BuysShares T pool amount) ∧
      ∀ st ∈ t.world.state?, ∀ shares auth' timestamp' w',
        invoke T pool t.world ⟨auth', timestamp', .withdraw investor shares⟩ = .ok w' →
        T.balance w'.tokens st.assetAddress pool = t.world.cash T pool st - t.world.brltToReturn T pool st shares := by
  intro w
  obtain ⟨hw, -⟩ := Ledger.invoke_inv h
  have hself : investor ≠ pool := by
    rintro rfl
    exact Bool.false_ne_true (hsigned.symm.trans (deposit_auth hw))
  have hS : (run (Ledger.step T pool) (.deployed tokens) is).SharesNonneg :=
    run_of_step (fun _ _ _ hs hstep => hs.step hstep) nofun is
  refine ⟨deposit_fair_iff_buysShares hT hself hS hw, fun st hst shares auth' timestamp' w' hw' => ?_⟩
  have hw' : withdraw T ⟨pool, auth', timestamp'⟩ t.world investor shares = .ok w' := hw'
  exact withdraw_pays hT hself hst hw'

section Examples
open Deployment

/-- A pool with one share, into which 100 BRLT were then transferred. -/
def inflated : Ledger MockBrltTokens :=
  run (Ledger.step mockBrlt pool) ledger [initializes, deposits investor 1, repays 1 100]

/-- A pool without shares, into which 50 BRLT were transferred. -/
def unshared : Ledger MockBrltTokens := run (Ledger.step mockBrlt pool) ledger [initializes, repays 1 50]

/-- A deposit of 100 buys no share of the one pool, and takes over the other's 50. -/
theorem deposits_unfair :
    (∃ t, inflated.step mockBrlt pool (deposits bystander 100) = .ok t ∧
      ¬FairDeposit mockBrlt pool inflated.world t.world 100) ∧
    ∃ t, unshared.step mockBrlt pool (deposits bystander 100) = .ok t ∧
      ¬FairDeposit mockBrlt pool unshared.world t.world 100 :=
  ⟨⟨_, rfl, by decide⟩, _, rfl, by decide⟩

theorem deposit_fair_iff_second :
    FairDeposit mockBrlt pool (run (Ledger.step mockBrlt pool) ledger [initializes, deposits investor 30, repays 1 20]).world
      (run (Ledger.step mockBrlt pool) ledger [initializes, deposits investor 30, repays 1 20, deposits bystander 7]).world
      7 :=
  ((deposit_fair_iff mockBrlt_exact pool tokens [initializes, deposits investor 30, repays 1 20] (signedBy bystander)
    (by decide) 0 bystander 7 _ rfl).1).mpr (by
      intro st hst
      cases hst
      decide)

end Examples
end CredBridge.Contracts.LiquidityPool
