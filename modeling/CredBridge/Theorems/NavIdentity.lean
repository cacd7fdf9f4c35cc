import CredBridge.Theorems.FairDeposits

/-! # The NAV as what came in and went out

The cash is read from the token and the principal from the pool's own storage. Their sum is what investors
paid in, less what they were paid, plus what came in from outside, less what settlements took off. A purchase
moves the two in opposite directions, except when the pool is its own seller: then the cash stays and the
principal grows all the same. -/

namespace CredBridge.Contracts.LiquidityPool
open Result Machine

/-! ### The flows of a run -/

def Input.deposited : Input → Int
  | .invoke ⟨_, _, .deposit _ amount⟩ => amount
  | _ => 0

def Input.seller? : Input → Option Address
  | .invoke ⟨_, _, .buyTokenizedInvoice _ seller _ _ _ _ _⟩ => some seller
  | _ => none

section Flows
variable {τ : Type} (T : TokenContracts τ) (self : Address)

def Ledger.nav (s : Ledger τ) : Int :=
  match s.world.state? with
  | some st => s.world.nav T self st
  | none => 0

/-- What a withdrawal pays. -/
def Ledger.paidOut (s : Ledger τ) : Input → Int
  | .invoke ⟨_, _, .withdraw _ shares⟩ =>
    match s.world.state? with
    | some st => s.world.brltToReturn T self st shares
    | none => 0
  | _ => 0

/-- BRLT that comes into the pool from outside. -/
def Ledger.received (s : Ledger τ) : Input → Int
  | .token _ call =>
    match s.world.state? with
    | some st => call.received self st.assetAddress
    | none => 0
  | .repay _ _ _ amount => amount
  | _ => 0

/-- What a settlement takes off: at most the principal there is. -/
def Ledger.takenOff (s : Ledger τ) : Input → Int
  | .invoke ⟨_, _, .settleInvoiceInPool _ _ principal⟩ =>
    match s.world.state? with
    | some st => min principal st.totalPrincipal
    | none => 0
  | _ => 0

/-- What the NAV has been since the pool was initialized with `cash`: what was deposited, less what was paid out, plus
    what was received, less what was taken off. -/
def Ledger.navOfFlows (s : Ledger τ) (cash : Int) (is : List Input) : Int :=
  cash + total (Ledger.step T self) (fun _ => Input.deposited) s is
    - total (Ledger.step T self) (Ledger.paidOut T self) s is
    + total (Ledger.step T self) (Ledger.received self) s is
    - total (Ledger.step T self) Ledger.takenOff s is

end Flows

section Identity
variable {τ : Type} {T : TokenContracts τ} {self : Address} {s t : Ledger τ} {i : Input} {st : PoolState}

theorem nav_of_state? (hst : s.world.state? = some st) : s.nav T self = s.world.nav T self st := by
  unfold Ledger.nav
  rw [hst]

def Ledger.flow (T : TokenContracts τ) (self : Address) (s : Ledger τ) (i : Input) : Int :=
  i.deposited + -s.paidOut T self i + s.received self i + -s.takenOff i

theorem navOfFlows_eq (cash : Int) (is : List Input) :
    s.navOfFlows T self cash is = cash + total (Ledger.step T self) (Ledger.flow T self) s is := by
  have hflow : Ledger.flow T self = fun s i =>
    i.deposited + -s.paidOut T self i + s.received self i + -s.takenOff i := rfl
  unfold Ledger.navOfFlows
  rw [hflow, total_add, total_add, total_add, total_neg, total_neg]
  omega

def Movement.ownPurchase : Movement → Int
  | .buy advance ownSale => if ownSale then advance else 0
  | _ => 0

/-- The flows of a step are what its movement adds to the NAV, but for a purchase from the pool itself. -/
theorem flow_eq_gain (hst : s.world.state? = some st)
    (hallows : (s.world.accounts T self st).Allows (i.movement self st.assetAddress)) :
    s.flow T self i = (s.world.accounts T self st).gain (i.movement self st.assetAddress) -
      (i.movement self st.assetAddress).ownPurchase := by
  cases i with
  | token auth call =>
    have hreceived : s.received self (.token auth call) = call.received self st.assetAddress := by
      unfold Ledger.received
      rw [hst]
    show 0 + -0 + s.received self (.token auth call) + -0 = call.received self st.assetAddress - 0
    omega
  | repay auth payer hash amount =>
    show 0 + -0 + amount + -0 = amount - 0
    omega
  | invoke inv =>
    obtain ⟨auth, timestamp, call⟩ := inv
    cases call with
    | deposit investor amount =>
      show amount + -0 + 0 + -0 = amount - 0
      omega
    | withdraw investor shares =>
      obtain ⟨hpos, -, hnav, -⟩ := hallows
      have hnav : 0 < s.world.nav T self st := hnav
      have hpaid : s.paidOut T self (.invoke ⟨auth, timestamp, .withdraw investor shares⟩) =
          (s.world.accounts T self st).fund.redeemable shares := by
        unfold Ledger.paidOut
        rw [hst]
        exact Int.tdiv_eq_ediv_of_nonneg (Int.mul_nonneg (Int.le_of_lt hpos) (Int.le_of_lt hnav))
      show 0 + -s.paidOut T self (.invoke ⟨auth, timestamp, .withdraw investor shares⟩) + 0 + -0 =
        -(s.world.accounts T self st).fund.redeemable shares - 0
      omega
    | buyTokenizedInvoice operator seller hash face advance rate maturity =>
      let own : Int := if decide (seller = self) then advance else 0
      show 0 + -0 + 0 + -0 = own - own
      omega
    | settleInvoiceInPool operator hash principal =>
      have htaken : s.takenOff (.invoke ⟨auth, timestamp, .settleInvoiceInPool operator hash principal⟩) =
          min principal st.totalPrincipal := by
        unfold Ledger.takenOff
        rw [hst]
      show 0 + -0 + 0 + -s.takenOff (.invoke ⟨auth, timestamp, .settleInvoiceInPool operator hash principal⟩) =
        -min principal st.totalPrincipal - 0
      omega
    | initializePool | pause | unpause | setOperator =>
      show (0 : Int) + -0 + 0 + -0 = 0 - 0
      rfl

theorem ownPurchase_eq_zero_iff {asset : Address} {a : Accounts} (hallows : a.Allows (i.movement self asset)) :
    (i.movement self asset).ownPurchase = 0 ↔ i.seller? ≠ some self := by
  cases i with
  | token auth call => exact iff_of_true rfl nofun
  | repay auth payer hash amount => exact iff_of_true rfl nofun
  | invoke inv =>
    obtain ⟨auth, timestamp, call⟩ := inv
    cases call with
    | buyTokenizedInvoice operator seller hash face advance rate maturity =>
      have hpos : 0 < advance := hallows.1
      show (if decide (seller = self) then advance else 0) = 0 ↔ some seller ≠ some self
      by_cases heq : seller = self
      · rw [if_pos (decide_eq_true heq), heq]
        exact iff_of_false (by omega) fun hne => hne rfl
      · rw [if_neg (by simpa using heq)]
        exact iff_of_true rfl fun hs => heq (Option.some.inj hs)
    | initializePool | deposit | withdraw | settleInvoiceInPool | pause | unpause | setOperator =>
      exact iff_of_true rfl (by intro h; cases h)

/-- The pool has a state, and its shares are not negative. -/
def Ledger.Open (s : Ledger τ) : Prop := ∃ st, s.world.state? = some st ∧ 0 ≤ st.totalShares

theorem Ledger.Open.step (hT : T.Exact) (hothers : i.ByOthers self) (hO : s.Open) (h : s.step T self i = .ok t) :
    t.Open ∧ (t.nav T self = s.nav T self + s.flow T self i ↔ i.seller? ≠ some self) := by
  obtain ⟨st, hst, hS⟩ := hO
  obtain ⟨hallows, st', hst', -, hafter⟩ := Ledger.step_moved hT hothers hst hS h
  have hnonneg : t.SharesNonneg := Ledger.SharesNonneg.step (fun st₁ hst₁ => by
    rw [hst] at hst₁
    cases hst₁
    exact hS) h
  refine ⟨⟨st', hst', hnonneg st' hst'⟩, ?_⟩
  have hnav : t.world.nav T self st' = s.world.nav T self st +
      (s.world.accounts T self st).gain (i.movement self st.assetAddress) :=
    (congrArg Accounts.nav hafter).trans (Accounts.nav_after _ _)
  rw [nav_of_state? hst, nav_of_state? hst', hnav, flow_eq_gain hst hallows, ← ownPurchase_eq_zero_iff hallows]
  omega

/-- A pool that was just initialized is worth what BRLT its address has. -/
theorem opened_by_initializePool {auth : Address → Bool} {timestamp : Nat} {admin operator asset share : Address}
    (h : s.step T self (.invoke ⟨auth, timestamp, .initializePool admin operator asset share⟩) = .ok t) :
    t.Open ∧ t.nav T self = T.balance t.world.tokens asset self := by
  obtain ⟨-, hs, -⟩ := initializePool_inv (Ledger.invoke_inv h).1
  have hst : t.world.state? = some ⟨admin, operator, asset, share, 0, 0, false⟩ :=
    state?_of_saved (by rw [hs]) (by rw [hs])
  exact ⟨⟨_, hst, Int.le_refl 0⟩, (nav_of_state? hst).trans (Int.add_zero _)⟩

end Identity

/-- After every part of a run from the initialization of the pool, by others than the pool, the NAV is what came in and
    went out since, exactly if the pool never buys an invoice from itself. -/
theorem nav_identity_iff_buys_from_others {τ : Type} {T : TokenContracts τ} (hT : T.Exact) (pool : Address)
    (before s : Ledger τ) (auth : Address → Bool) (timestamp : Nat) (admin operator asset share : Address)
    (hinit : before.step T pool (.invoke ⟨auth, timestamp, .initializePool admin operator asset share⟩) = .ok s)
    (is : List Input) (hothers : ∀ i ∈ is, i.ByOthers pool) :
    (∀ js, js <+: is → (run (Ledger.step T pool) s js).nav T pool =
      s.navOfFlows T pool (T.balance s.world.tokens asset pool) js) ↔
    Along (Ledger.step T pool) (fun s i => ∀ t, s.step T pool i = .ok t → i.seller? ≠ some pool) s is := by
  obtain ⟨hopen, hnav⟩ := opened_by_initializePool hinit
  simp only [navOfFlows_eq, ← hnav]
  exact value_eq_total_iff (I := Ledger.Open) (fun _ _ _ hi hO h => (hO.step hT hi h).1)
    (fun _ _ _ hi hO h => (hO.step hT hi h).2) hothers hopen

section Examples
open Deployment

def opened : Ledger MockBrltTokens := run (Ledger.step mockBrlt pool) ledger [initializes]

/-- The operator names the pool as the seller. -/
def buysFromPool (advance : Int) : Input :=
  .invoke ⟨signedBy operator, 0, .buyTokenizedInvoice operator pool (hash 1) advance advance 0 0⟩

/-- The cash of 100 stays and the principal becomes 60: the NAV is 160, though only 100 came in. -/
theorem own_purchase_raises_nav :
    (run (Ledger.step mockBrlt pool) opened [deposits investor 100, buysFromPool 60]).nav mockBrlt pool ≠
      opened.navOfFlows mockBrlt pool 0 [deposits investor 100, buysFromPool 60] := by
  decide

theorem nav_identity_iff_buys_from_others_repaid :
    let is := [deposits investor 100, buys 1 60, repays 1 70, settles 1 80, withdraws investor 30]
    (run (Ledger.step mockBrlt pool) opened is).nav mockBrlt pool = opened.navOfFlows mockBrlt pool 0 is :=
  (nav_identity_iff_buys_from_others mockBrlt_exact pool ledger opened (signedBy admin) 0 admin operator brlt shareToken
    rfl [deposits investor 100, buys 1 60, repays 1 70, settles 1 80, withdraws investor 30] (by decide)).mpr
    (Along.mono (Q := fun _ i => i.seller? ≠ some pool) (by decide) fun _ _ h _ _ => h) _ (List.prefix_refl _)

end Examples
end CredBridge.Contracts.LiquidityPool
