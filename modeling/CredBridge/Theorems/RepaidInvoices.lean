import CredBridge.Theorems.PrincipalLedger
import CredBridge.Theorems.ShareValue

/-! # Repaid invoices

Between the payer's transfer and the operator's settlement, an invoice counts twice in the pool's value:
as the BRLT that came in and as the principal that is still out. A withdrawal in that window is paid at the
doubled value, and the settlement leaves the loss with those who stay. Outside the window a share never
falls below one unit: the invariant is that the shares are covered by the value less what is counted
twice. -/

namespace CredBridge.Contracts.LiquidityPool
open Result Machine

/-! ### What the book counts twice -/

namespace Book
variable {b : Book} {hash : BytesN 32} {principal advance amount : Int}

theorem repaidOut_nonneg (hpos : ∀ e ∈ b, 0 < e.advance) : 0 ≤ b.repaidOut := by
  refine List.sum_nonneg fun x hx => ?_
  obtain ⟨e, he, rfl⟩ := List.mem_map.mp hx
  show 0 ≤ e.repaidOut
  unfold Invoice.repaidOut
  split
  · exact Int.le_of_lt (hpos e he)
  · exact Int.le_refl 0

theorem repaidOut_buy : (b.buy hash advance).repaidOut = b.repaidOut := by
  unfold repaidOut buy
  rw [Table.sum_append_singleton]
  exact Int.add_zero _

theorem repaidOut_repay_le (hkeyed : Table.Keyed Invoice.hash b) (hamount : 0 ≤ amount) :
    (b.repay hash amount).repaidOut ≤ b.repaidOut + amount := by
  unfold repaidOut repay
  by_cases hmem : hash ∈ b.map Invoice.hash
  · obtain ⟨e, he, rfl⟩ := List.mem_map.mp hmem
    rw [Table.sum_modify hkeyed he]
    have hle : (e.repay amount).repaidOut ≤ e.repaidOut + amount := by
      unfold Invoice.repay
      split
      · next hc =>
        have hbefore : e.repaidOut = 0 := if_neg (by rw [hc.1]; nofun)
        have hafter : Invoice.repaidOut { e with stage := .repaid } = e.advance := if_pos rfl
        rw [hbefore, hafter, Int.zero_add]
        exact hc.2
      · exact Int.le_add_of_nonneg_right hamount
    omega
  · rw [Table.modify_of_not_mem hmem]
    exact Int.le_add_of_nonneg_right hamount

def MatchesRepaid (b : Book) (hash : BytesN 32) (principal : Int) : Prop :=
  ∃ e ∈ b, e.hash = hash ∧ e.stage = .repaid ∧ e.advance = principal

instance (b : Book) (hash : BytesN 32) (principal : Int) : Decidable (b.MatchesRepaid hash principal) :=
  inferInstanceAs (Decidable (∃ e ∈ b, e.hash = hash ∧ e.stage = .repaid ∧ e.advance = principal))

theorem MatchesRepaid.matches (h : b.MatchesRepaid hash principal) : b.Matches hash principal := by
  obtain ⟨e, he, hk, hstage, ha⟩ := h
  refine ⟨e, he, hk, fun hn => ?_, ha⟩
  rw [hstage] at hn
  cases hn

theorem repaidOut_settle (hkeyed : Table.Keyed Invoice.hash b) (h : b.MatchesRepaid hash principal) :
    (b.settle hash principal).repaidOut = b.repaidOut - principal := by
  obtain ⟨e, he, rfl, hstage, rfl⟩ := h
  unfold repaidOut settle
  rw [Table.sum_modify hkeyed he]
  have hbefore : e.repaidOut = e.advance := if_pos hstage
  have hafter : (e.settle e.advance).repaidOut = 0 := by
    have hun : e.Unsettled := fun hn => by rw [hstage] at hn; cases hn
    unfold Invoice.settle
    rw [if_pos ⟨hun, rfl⟩]
    exact if_neg nofun
  rw [hbefore, hafter, Int.add_zero]

def NoneRepaid (b : Book) : Prop := ∀ e ∈ b, e.stage ≠ .repaid

instance (b : Book) : Decidable b.NoneRepaid := inferInstanceAs (Decidable (∀ e ∈ b, e.stage ≠ .repaid))

theorem NoneRepaid.repaidOut_eq_zero (h : b.NoneRepaid) : b.repaidOut = 0 := by
  refine List.sum_eq_zero fun x hx => ?_
  obtain ⟨e, he, rfl⟩ := List.mem_map.mp hx
  exact if_neg (h e he)

end Book

/-! ### Runs in which invoices are repaid before they are settled -/

section Statements
variable {τ : Type} (T : TokenContracts τ) (self : Address)

def Input.party? : Input → Option Address
  | .invoke ⟨_, _, .deposit investor _⟩ => some investor
  | .invoke ⟨_, _, .withdraw investor _⟩ => some investor
  | .invoke _ => none
  | .token _ call => call.payer?
  | .repay _ payer _ _ => some payer

def Input.ByOthers (i : Input) : Prop := i.party? ≠ some self

/-- Each settlement follows the repayment of the invoice it names, and takes off exactly its advance. -/
def Ledger.SettlesRepaid (s : Ledger τ) (i : Input) : Prop :=
  ∀ x ∈ i.settles?, s.book.MatchesRepaid x.1 x.2

def Input.isWithdrawal : Input → Bool
  | .invoke ⟨_, _, .withdraw _ _⟩ => true
  | _ => false

/-- No withdrawal is made while a repaid invoice is unsettled. -/
def Ledger.WithdrawsClear (s : Ledger τ) (i : Input) : Prop := i.isWithdrawal = true → s.book.NoneRepaid

/-- With no repaid invoice unsettled, the shares are covered by the pool's value. -/
def Ledger.AtPar (s : Ledger τ) : Prop :=
  s.book.NoneRepaid → ∀ st ∈ s.world.state?, st.totalShares ≤ s.world.nav T self st

def Ledger.PriceAtPar (s : Ledger τ) : Prop :=
  s.book.NoneRepaid → ∀ env price, env.currentContractAddress = self →
    getSharePrice T env s.world = .ok price → priceScale ≤ price

instance (i : Input) : Decidable (i.ByOthers self) := inferInstanceAs (Decidable (i.party? ≠ some self))

instance (s : Ledger τ) (i : Input) : Decidable (s.SettlesRepaid i) :=
  inferInstanceAs (Decidable (∀ x ∈ i.settles?, s.book.MatchesRepaid x.1 x.2))

instance (s : Ledger τ) (i : Input) : Decidable (s.WithdrawsClear i) :=
  inferInstanceAs (Decidable (i.isWithdrawal = true → s.book.NoneRepaid))

instance : DecidablePred (Ledger.AtPar T self) := fun s =>
  inferInstanceAs (Decidable (s.book.NoneRepaid → ∀ st ∈ s.world.state?, st.totalShares ≤ s.world.nav T self st))

end Statements

/-- The shares are covered by the pool's value less what is counted twice. -/
structure Ledger.Covered {τ : Type} (T : TokenContracts τ) (pool : Address) (s : Ledger τ) : Prop where
  recorded : s.Recorded
  balanced : s.Balanced
  cash : s.world.state? = none → ∀ t, 0 ≤ T.balance s.world.tokens t pool
  shares : ∀ st ∈ s.world.state?, 0 ≤ st.totalShares
  covered : ∀ st ∈ s.world.state?, st.totalShares ≤ s.world.nav T pool st - s.book.repaidOut

section Steps
variable {τ : Type} {T : TokenContracts τ} {self : Address} {s t : Ledger τ}

theorem Ledger.Covered.atPar (hC : s.Covered T self) : s.AtPar T self := by
  intro hnone st hst
  have hle := hC.covered st hst
  rw [hnone.repaidOut_eq_zero] at hle
  omega

theorem price_atPar {env : Env} {w : World τ} {st : PoolState} {price : Int} (hst : w.state? = some st)
    (hS : 0 ≤ st.totalShares) (hpar : st.totalShares ≤ w.nav T env.currentContractAddress st)
    (h : getSharePrice T env w = .ok price) : priceScale ≤ price := by
  obtain ⟨st', hst', hprice⟩ := getSharePrice_inv h
  rw [hst] at hst'
  cases hst'
  rcases hprice with ⟨-, rfl⟩ | ⟨hne, rfl⟩
  · exact Int.le_refl _
  · have hscale : (0 : Int) ≤ priceScale := by decide
    have hle : priceScale * st.totalShares ≤ w.nav T env.currentContractAddress st * priceScale := by
      rw [Int.mul_comm priceScale]
      exact Int.mul_le_mul_of_nonneg_right hpar hscale
    rw [Int.tdiv_eq_ediv_of_nonneg (Int.le_trans (Int.mul_nonneg hscale hS) hle)]
    exact (Int.le_ediv_iff_mul_le (by omega)).mpr hle

theorem Ledger.Covered.priceAtPar (hC : s.Covered T self) : s.PriceAtPar T self := by
  intro hnone env price hself h
  obtain ⟨st, hst, -⟩ := getSharePrice_inv h
  exact price_atPar hst (hC.shares st hst) (hself ▸ hC.atPar hnone st hst) h

theorem TokenCall.balance_le (hT : T.Honest) {auth : Address → Bool} {call : TokenCall} {tokens tokens' : τ}
    (hp : call.payer? ≠ some self) (h : call.apply T auth tokens = .ok tokens') (a : Address) :
    T.balance tokens a self ≤ T.balance tokens' a self := by
  cases call with
  | transfer token sender receiver amount =>
    have hself : self ≠ sender := fun he => hp (congrArg some he.symm)
    have hin : 0 ≤ moved token receiver amount a self := moved_nonneg (hT.transfer_nonneg h)
    rw [hT.transfer h, moved_of_ne hself]
    omega
  | mint token admin receiver amount =>
    have hin : 0 ≤ moved token receiver amount a self := moved_nonneg (hT.mint_nonneg h)
    rw [hT.mint h]
    omega
  | burn token holder amount =>
    have hself : self ≠ holder := fun he => hp (congrArg some he.symm)
    rw [hT.burn h, moved_of_ne hself]
    omega

def Ledger.CoversState (T : TokenContracts τ) (self : Address) (t : Ledger τ) (st : PoolState) : Prop :=
  t.world.state? = some st ∧ 0 ≤ st.totalShares ∧ st.totalShares ≤ t.world.nav T self st - t.book.repaidOut

theorem Ledger.Covered.of_state (hR : t.Recorded) (hB : t.Balanced) {st : PoolState}
    (h : t.CoversState T self st) : t.Covered T self where
  recorded := hR
  balanced := hB
  cash hnone := by
    rw [h.1] at hnone
    cases hnone
  shares st' hst' := by
    rw [h.1] at hst'
    cases hst'
    exact h.2.1
  covered st' hst' := by
    rw [h.1] at hst'
    cases hst'
    exact h.2.2

theorem Ledger.coversState_of_fund? {f : Fund} (hf : t.world.fund? T self = some f) (hS : 0 ≤ f.shares)
    (hcov : f.shares ≤ f.value - t.book.repaidOut) : ∃ st, t.CoversState T self st := by
  obtain ⟨st, hst, rfl⟩ := state?_of_fund? hf
  exact ⟨st, hst, hS, hcov⟩

theorem Ledger.Covered.deposit (hT : T.Honest) (hC : s.Covered T self) {auth : Address → Bool} {timestamp : Nat}
    {investor : Address} {amount : Int} (hself : investor ≠ self) (hbook : t.book = s.book)
    (h : LiquidityPool.deposit T ⟨self, auth, timestamp⟩ s.world investor amount = .ok t.world) :
    ∃ st, t.CoversState T self st := by
  obtain ⟨st, _, _, hst, -⟩ := deposit_inv h
  have hS : 0 ≤ st.totalShares := hC.shares st hst
  have hcov := hC.covered st hst
  have hR := Book.repaidOut_nonneg hC.recorded.advances
  obtain ⟨hf, hamount, hvalue⟩ := deposit_fund (f := ⟨s.world.nav T self st, st.totalShares⟩) hT.toExact
    ⟨self, auth, timestamp⟩ hself h (fund?_of_state? hst) hS
  have hpar : Fund.AtPar ⟨s.world.nav T self st, st.totalShares⟩ := by
    show st.totalShares ≤ s.world.nav T self st
    omega
  have hle := Fund.minted_le_of_atPar hpar hvalue (Int.le_of_lt hamount)
  have hnonneg := Fund.minted_nonneg hvalue hS (Int.le_of_lt hamount)
  refine Ledger.coversState_of_fund? hf (Int.add_nonneg hS hnonneg) ?_
  rw [hbook]
  show st.totalShares + Fund.minted ⟨s.world.nav T self st, st.totalShares⟩ amount ≤
    s.world.nav T self st + amount - s.book.repaidOut
  omega

theorem Ledger.Covered.withdraw (hT : T.Honest) (hC : s.Covered T self) {auth : Address → Bool} {timestamp : Nat}
    {investor : Address} {shares : Int} (hself : investor ≠ self) (hbook : t.book = s.book)
    (hnone : s.book.NoneRepaid)
    (h : LiquidityPool.withdraw T ⟨self, auth, timestamp⟩ s.world investor shares = .ok t.world) :
    ∃ st, t.CoversState T self st := by
  obtain ⟨st, _, _, hst, -, hpos, hle, -⟩ := withdraw_inv h
  obtain ⟨hf, -⟩ := withdraw_fund hT.toExact ⟨self, auth, timestamp⟩ hself h (fund?_of_state? hst)
  have hpar : Fund.AtPar ⟨s.world.nav T self st, st.totalShares⟩ := hC.atPar hnone st hst
  have hafter := Fund.atPar_payOut hpar (Int.lt_of_lt_of_le hpos hle) hle
  refine Ledger.coversState_of_fund? hf (Int.sub_nonneg.mpr hle) ?_
  rw [hbook, hnone.repaidOut_eq_zero, Int.sub_zero]
  exact hafter

theorem Ledger.Covered.buyTokenizedInvoice (hT : T.Honest) (hC : s.Covered T self) {auth : Address → Bool}
    {timestamp : Nat} {operator seller : Address} {hash : BytesN 32} {face advance rate : Int} {maturity : Nat}
    (hbook : t.book = s.book.buy hash advance)
    (h : LiquidityPool.buyTokenizedInvoice T ⟨self, auth, timestamp⟩ s.world operator seller hash face advance rate
      maturity = .ok t.world) : ∃ st, t.CoversState T self st := by
  obtain ⟨st, hst, -, -, hst', -, hcash⟩ := buyTokenizedInvoice_accounts hT.toExact h
  have hcov := hC.covered st hst
  have hnav : s.world.nav T self st ≤
      t.world.nav T self { st with totalPrincipal := st.totalPrincipal + advance } := by
    show s.world.cash T self st + st.totalPrincipal ≤
      T.balance t.world.tokens st.assetAddress self + (st.totalPrincipal + advance)
    have hcash : s.world.cash T self st - advance ≤ T.balance t.world.tokens st.assetAddress self := hcash
    omega
  refine ⟨_, hst', hC.shares st hst, ?_⟩
  rw [hbook, Book.repaidOut_buy]
  exact Int.le_trans hcov (Int.sub_le_sub_right hnav _)

theorem Ledger.Covered.settleInvoiceInPool (hC : s.Covered T self) {auth : Address → Bool} {timestamp : Nat}
    {operator : Address} {hash : BytesN 32} {principal : Int} (hbook : t.book = s.book.settle hash principal)
    (hrepaid : s.book.MatchesRepaid hash principal)
    (h : LiquidityPool.settleInvoiceInPool ⟨self, auth, timestamp⟩ s.world operator hash principal = .ok t.world) :
    ∃ st, t.CoversState T self st := by
  obtain ⟨st, hst, -, -, hpos, htokens, hs⟩ := settleInvoiceInPool_inv h
  have hcov := hC.covered st hst
  have htotal : st.totalPrincipal = s.book.principalOut := hC.balanced st hst
  have hle := Book.le_principalOut hC.recorded.advances hrepaid.matches
  have hnot : ¬principal > st.totalPrincipal := by omega
  rw [if_neg hnot] at hs
  have hnav : t.world.nav T self { st with totalPrincipal := st.totalPrincipal - principal } =
      s.world.nav T self st - principal := by
    unfold World.nav World.cash
    rw [htokens]
    exact (Int.add_sub_assoc _ _ _).symm
  refine ⟨_, state?_saveState hst hs rfl, hC.shares st hst, ?_⟩
  rw [hnav, hbook, Book.repaidOut_settle hC.recorded.keyed hrepaid]
  show st.totalShares ≤ _
  omega

theorem Ledger.Covered.save (hC : s.Covered T self) {st st' : PoolState} (hst : s.world.state? = some st)
    (hst' : t.world.state? = some st') (htokens : t.world.tokens = s.world.tokens) (hbook : t.book = s.book)
    (hasset : st'.assetAddress = st.assetAddress) (hprincipal : st'.totalPrincipal = st.totalPrincipal)
    (hshares : st'.totalShares = st.totalShares) : ∃ st, t.CoversState T self st := by
  have hnav : t.world.nav T self st' = s.world.nav T self st := by
    unfold World.nav World.cash
    rw [htokens, hasset, hprincipal]
  refine ⟨st', hst', hshares ▸ hC.shares st hst, ?_⟩
  rw [hshares, hnav, hbook]
  exact hC.covered st hst

theorem Ledger.Covered.initializePool (hC : s.Covered T self) {admin operator asset share : Address}
    (hbook : t.book = s.book)
    (h : LiquidityPool.initializePool s.world admin operator asset share = .ok t.world) :
    ∃ st, t.CoversState T self st := by
  obtain ⟨hfresh, hs, htokens⟩ := initializePool_inv h
  have hempty : t.book = [] := hbook.trans (hC.recorded.fresh hfresh)
  have hcash := hC.cash (state?_eq_none hfresh) asset
  refine ⟨⟨admin, operator, asset, share, 0, 0, false⟩, state?_of_saved (by rw [hs]) (by rw [hs]), Int.le_refl 0, ?_⟩
  rw [hempty]
  show 0 ≤ T.balance t.world.tokens asset self + 0 - 0
  rw [htokens]
  omega

theorem Ledger.Covered.keep (hC : s.Covered T self) (hR : t.Recorded) (hB : t.Balanced)
    (hstorage : t.world.storage = s.world.storage) (hbook : t.book = s.book)
    (hle : ∀ a, T.balance s.world.tokens a self ≤ T.balance t.world.tokens a self) : t.Covered T self where
  recorded := hR
  balanced := hB
  cash hnone a := Int.le_trans (hC.cash (state?_congr hstorage ▸ hnone) a) (hle a)
  shares st hst := hC.shares st (state?_congr hstorage ▸ hst)
  covered st hst := by
    have hcov := hC.covered st (state?_congr hstorage ▸ hst)
    have hcash := hle st.assetAddress
    rw [hbook]
    unfold World.nav World.cash at hcov ⊢
    omega

theorem Ledger.Covered.repay (hT : T.Honest) (hC : s.Covered T self) {auth : Address → Bool} {payer : Address}
    {hash : BytesN 32} {amount : Int} (hself : payer ≠ self)
    (h : s.step T self (.repay auth payer hash amount) = .ok t) : ∃ st, t.CoversState T self st := by
  obtain ⟨st, hst, htransfer, hs, hbook⟩ := Ledger.repay_inv h
  have hcov := hC.covered st hst
  have hle : (s.book.repay hash amount).repaidOut ≤ s.book.repaidOut + amount :=
    Book.repaidOut_repay_le hC.recorded.keyed (hT.transfer_nonneg htransfer)
  refine ⟨st, (state?_congr hs).trans hst, hC.shares st hst, ?_⟩
  rw [hbook]
  unfold World.nav World.cash at hcov ⊢
  rw [hT.transfer htransfer, moved_self, moved_of_ne (Ne.symm hself)]
  omega

/-- One step of a run in which invoices are repaid before they are settled, and no withdrawal is made in
    between, leaves the shares covered. -/
theorem Ledger.Covered.step (hT : T.Honest) (hC : s.Covered T self) {i : Input} (hothers : i.ByOthers self)
    (hsettles : s.SettlesRepaid i) (hclear : s.WithdrawsClear i) (h : s.step T self i = .ok t) :
    t.Covered T self := by
  have hR : t.Recorded := hC.recorded.step h
  have hB : t.Balanced := (Ledger.balanced_step_iff hC.recorded hC.balanced h).mpr
    fun hash principal hi => .inl (hsettles (hash, principal) hi).matches
  cases i with
  | token auth call =>
    obtain ⟨htokens, hs, hbook⟩ := Ledger.token_inv h
    exact hC.keep hR hB hs hbook (TokenCall.balance_le hT hothers htokens)
  | repay auth payer hash amount =>
    obtain ⟨st, hst⟩ := hC.repay hT (fun he => hothers (congrArg some he)) h
    exact .of_state hR hB hst
  | invoke inv =>
    obtain ⟨hw, hbook⟩ := Ledger.invoke_inv h
    obtain ⟨auth, timestamp, call⟩ := inv
    suffices hex : ∃ st, t.CoversState T self st from hex.elim fun _ hst => .of_state hR hB hst
    cases call with
    | initializePool admin operator asset share => exact hC.initializePool hbook hw
    | deposit investor amount => exact hC.deposit hT (fun he => hothers (congrArg some he)) hbook hw
    | withdraw investor shares =>
      exact hC.withdraw hT (fun he => hothers (congrArg some he)) hbook (hclear rfl) hw
    | buyTokenizedInvoice operator seller hash face advance rate maturity =>
      exact hC.buyTokenizedInvoice hT hbook hw
    | settleInvoiceInPool operator hash principal =>
      exact hC.settleInvoiceInPool hbook (hsettles (hash, principal) rfl) hw
    | pause admin =>
      obtain ⟨st, hst, -, htokens, hs⟩ := setPaused_inv hw
      exact hC.save hst (state?_saveState hst hs rfl) htokens hbook rfl rfl rfl
    | unpause admin =>
      obtain ⟨st, hst, -, htokens, hs⟩ := setPaused_inv hw
      exact hC.save hst (state?_saveState hst hs rfl) htokens hbook rfl rfl rfl
    | setOperator admin operator =>
      obtain ⟨st, hst, -, htokens, hs⟩ := setOperator_inv hw
      exact hC.save hst (state?_saveState hst hs rfl) htokens hbook rfl rfl rfl

theorem Ledger.covered_deployed {tokens : τ} (hcash : ∀ a, 0 ≤ T.balance tokens a self) :
    (Ledger.deployed tokens).Covered T self where
  recorded := Ledger.recorded_deployed
  balanced := nofun
  cash _ := hcash
  shares := nofun
  covered := nofun

end Steps

/-- In every run by others than the pool in which each invoice is repaid before it is settled with exactly its
    advance, and no withdrawal is made while a repaid invoice is unsettled, the shares are covered and the
    price is at par in every state in which no repaid invoice is unsettled. -/
theorem repaid_invoices_cost_nothing {τ : Type} {T : TokenContracts τ} (hT : T.Honest) (self : Address) (tokens : τ)
    (hcash : ∀ a, 0 ≤ T.balance tokens a self) (is : List Input) (hothers : ∀ i ∈ is, i.ByOthers self)
    (hsettles : Along (Ledger.step T self) (fun s i => ∀ t, s.step T self i = .ok t → s.SettlesRepaid i)
      (.deployed tokens) is)
    (hclear : Along (Ledger.step T self) (fun s i => ∀ t, s.step T self i = .ok t → s.WithdrawsClear i)
      (.deployed tokens) is) :
    Throughout (Ledger.step T self) (fun s => s.AtPar T self ∧ s.PriceAtPar T self) (.deployed tokens) is := by
  have hcovered : Throughout (Ledger.step T self) (Ledger.Covered T self) (.deployed tokens) is :=
    throughout_of_along
      (fun s i t hC hQ h => hC.step hT hQ.1 (hQ.2.1 t h) (hQ.2.2 t h) h) (Ledger.covered_deployed hcash)
      ((Along.of_forall hothers).and (hsettles.and hclear))
  exact hcovered.mono fun s hC => ⟨hC.atPar, hC.priceAtPar⟩

section Counterexample
open Deployment

theorem repaid_invoices_cost_nothing_settled_first :
    Throughout (Ledger.step mockBrlt pool) (fun s => s.AtPar mockBrlt pool ∧ s.PriceAtPar mockBrlt pool) ledger
      [initializes, deposits investor 100, buys 1 60, repays 1 70, settles 1 60, withdraws investor 50] :=
  repaid_invoices_cost_nothing mockBrlt_honest pool tokens tokens_nonneg _ (by decide)
    (Along.mono (Q := Ledger.SettlesRepaid) (by decide) fun _ _ h _ _ => h)
    (Along.mono (Q := Ledger.WithdrawsClear) (by decide) fun _ _ h _ _ => h)

/-- All the cash goes into an invoice, which is repaid and settled with exactly its advance; in between, half
    the shares are withdrawn. -/
def lossyRun : List Input :=
  [initializes, deposits investor 100, buys 1 100, repays 1 100, withdraws investor 50, settles 1 100]

theorem withdrawal_before_settlement_costs :
    (∀ i ∈ lossyRun, i.ByOthers pool) ∧ Along (Ledger.step mockBrlt pool) Ledger.SettlesRepaid ledger lossyRun ∧
      ¬Throughout (Ledger.step mockBrlt pool) (Ledger.AtPar mockBrlt pool) ledger lossyRun := by
  decide

end Counterexample
end CredBridge.Contracts.LiquidityPool
