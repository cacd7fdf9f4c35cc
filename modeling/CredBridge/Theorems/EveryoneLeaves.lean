import CredBridge.Contracts.PoolRuns
import CredBridge.Lib.ProRata

/-! # Everyone can leave

When a pool has no principal out, its holders can give their shares back in any order. Each withdrawal pays out of the
pro rata fund that the earlier ones left, so the last one empties it. -/

namespace CredBridge.Contracts.LiquidityPool
open Result Machine

section Leaving
variable {τ : Type} (T : TokenContracts τ) (pool : Address)

/-- These holders have all the shares of a pool that is not paused and has no principal out. -/
structure Leaving (w : World τ) (st : PoolState) (holders : List Address) : Prop where
  state : w.state? = some st
  paused : st.paused = false
  principal : st.totalPrincipal = 0
  distinct : holders.Nodup
  notPool : pool ∉ holders
  positive : ∀ h ∈ holders, 0 < T.balance w.tokens st.shareTokenAddress h
  total : (holders.map (T.balance w.tokens st.shareTokenAddress)).sum = st.totalShares

/-- The invocation by which a holder gives back some shares. -/
def Withdraws (holder : Address) (shares : Int) (inv : Invocation) : Prop :=
  inv.call = .withdraw holder shares ∧ inv.auth holder = true

/-- What `w'` is after the holders withdrew from `w` one after the other. -/
structure Left (w : World τ) (st : PoolState) (order : List Address) (payouts : List Int) (w' : World τ) : Prop where
  state : w'.state? =
    some { st with totalShares := st.totalShares - (order.map (T.balance w.tokens st.shareTokenAddress)).sum }
  cash : w'.cash T pool st = w.cash T pool st - payouts.sum
  paid : List.Forall₂ (fun a paid => T.balance w'.tokens st.assetAddress a = T.balance w.tokens st.assetAddress a -
    moved st.shareTokenAddress a (T.balance w.tokens st.shareTokenAddress a) st.assetAddress a + paid) order payouts
  others : ∀ a, a ≠ pool → a ∉ order → ∀ t, T.balance w'.tokens t a = T.balance w.tokens t a
  events : w'.events = w.events ++ List.zipWith Event.withdraw order payouts

/-- The numbers that a withdrawal computes with fit in 128 bits. -/
def NoOverflow (w : World τ) : Call → Prop
  | .withdraw _ shares => ∀ st ∈ w.state?, st.totalShares ≤ I128.max ∧ shares * w.nav T pool st ≤ I128.max
  | _ => True

instance (w : World τ) : (call : Call) → Decidable (NoOverflow T pool w call)
  | .withdraw _ _ => inferInstanceAs (Decidable (∀ st ∈ w.state?, _ ∧ _))
  | .initializePool .. | .deposit .. | .buyTokenizedInvoice .. | .settleInvoiceInPool .. | .pause _ | .unpause _
  | .setOperator .. => instDecidableTrue

end Leaving

section Withdrawal
variable {τ : Type} {T : TokenContracts τ} {pool : Address} {w w' : World τ} {st : PoolState} {holders order : List Address}
  {holder : Address}

theorem Leaving.perm (h : Leaving T pool w st holders) (hperm : order.Perm holders) : Leaving T pool w st order where
  state := h.state
  paused := h.paused
  principal := h.principal
  distinct := hperm.nodup_iff.mpr h.distinct
  notPool := fun hmem => h.notPool (hperm.mem_iff.mp hmem)
  positive := fun a ha => h.positive a (hperm.mem_iff.mp ha)
  total := (hperm.map _).sum_eq.trans h.total

theorem Leaving.nav (h : Leaving T pool w st holders) : w.nav T pool st = w.cash T pool st := by
  unfold World.nav
  rw [h.principal, Int.add_zero]

theorem sum_nonneg_of_positive {f : Address → Int} (h : ∀ a ∈ holders, 0 < f a) : 0 ≤ (holders.map f).sum := by
  refine List.sum_nonneg fun x hx => ?_
  obtain ⟨a, ha, rfl⟩ := List.mem_map.mp hx
  exact Int.le_of_lt (h a ha)

/-- The first of the holders can withdraw: the pool has the cash, and the holder has the shares. -/
theorem Leaving.withdraw_ok (hT : T.Exact) (hL : T.Liquid) {env : Env} (hpool : env.currentContractAddress = pool)
    (h : Leaving T pool w st (holder :: holders)) (hauth : env.auth holder = true) (hcash : 0 < w.cash T pool st)
    (hshares : st.totalShares ≤ I128.max)
    (hfits : T.balance w.tokens st.shareTokenAddress holder * w.nav T pool st ≤ I128.max) :
    let b := T.balance w.tokens st.shareTokenAddress holder
    let paid := Fund.redeemable ⟨w.cash T pool st, st.totalShares⟩ b
    ∃ burned tokens, T.burn env.callAuth w.tokens st.shareTokenAddress holder b = .ok burned ∧
      T.transfer env.callAuth burned st.assetAddress pool holder paid = .ok tokens ∧
      withdraw T env w holder b = .ok ⟨saveState w.storage { st with totalShares := st.totalShares - b }, tokens,
        w.events ++ [.withdraw holder paid]⟩ := by
  subst hpool
  intro b paid
  let cash := w.cash T env.currentContractAddress st
  have hb : 0 < b := h.positive holder List.mem_cons_self
  have hrest := sum_nonneg_of_positive fun a ha => h.positive a (List.mem_cons_of_mem holder ha)
  have htotal : b + (holders.map (T.balance w.tokens st.shareTokenAddress)).sum = st.totalShares := h.total
  have hle : b ≤ st.totalShares := by omega
  have hS : 0 < st.totalShares := by omega
  rw [h.nav] at hfits
  have hprod : 0 ≤ b * cash := Int.mul_nonneg (Int.le_of_lt hb) (Int.le_of_lt hcash)
  have hcashle : cash ≤ I128.max := Int.le_trans (le_mul_of_one_le_left (Int.le_of_lt hcash) hb) hfits
  have hpaid : paid ≤ cash := Int.ediv_le_of_le_mul hS (by
    rw [Int.mul_comm]
    exact Int.mul_le_mul_of_nonneg_left hle (Int.le_of_lt hcash))
  have hpaid0 : 0 ≤ paid := Int.ediv_nonneg hprod (Int.le_of_lt hS)
  obtain ⟨burned, hburn⟩ := hL.burn (show env.callAuth holder = true by simp [Env.callAuth, hauth]) (Int.le_of_lt hb)
    (Int.le_refl b)
  have hne : env.currentContractAddress ≠ holder := fun heq => h.notPool (heq ▸ List.mem_cons_self)
  have hkept : T.balance burned st.assetAddress env.currentContractAddress = cash := by
    rw [hT.burn hburn, moved_of_ne hne, Int.sub_zero]
    rfl
  obtain ⟨tokens, htransfer⟩ := hL.transfer
    (show env.callAuth env.currentContractAddress = true by simp [Env.callAuth]) hpaid0 (hpaid.trans_eq hkept.symm) holder
  have hnav : I128.add cash st.totalPrincipal = .ok cash := by
    unfold I128.add
    rw [h.principal, Int.add_zero]
    exact I128.checked_of_le (Int.le_of_lt hcash) hcashle
  have hdiv : I128.div (b * cash) st.totalShares = .ok paid := by
    unfold I128.div
    rw [if_neg (by omega), Int.tdiv_eq_ediv_of_nonneg hprod]
    exact I128.checked_of_le hpaid0 (Int.le_trans hpaid hcashle)
  refine ⟨burned, tokens, hburn, htransfer, ?_⟩
  refine bind_eq_ok.mpr ⟨(), requireAuth_eq_ok.mpr hauth, bind_eq_ok.mpr ⟨st, loadState_eq_ok.mpr h.state, ?_⟩⟩
  refine throwIf_bind_eq_ok.mpr ⟨Bool.eq_false_iff.mp h.paused, throwIf_bind_eq_ok.mpr ⟨Int.not_le.mpr hb,
    throwIf_bind_eq_ok.mpr ⟨Int.not_lt.mpr hle, bind_eq_ok.mpr ⟨cash, hnav, throwIf_bind_eq_ok.mpr ⟨?_, ?_⟩⟩⟩⟩⟩
  · rintro (hn | hs) <;> omega
  · refine bind_eq_ok.mpr ⟨_, I128.checked_of_le hprod hfits, bind_eq_ok.mpr ⟨paid, hdiv, ?_⟩⟩
    refine throwIf_bind_eq_ok.mpr ⟨Int.not_lt.mpr hpaid, bind_eq_ok.mpr ⟨burned, hburn, bind_eq_ok.mpr ⟨tokens, htransfer, ?_⟩⟩⟩
    exact bind_eq_ok.mpr ⟨_, I128.checked_of_le (by omega) (by omega), rfl⟩

/-- After the first withdrawal the others still have all the shares there are. -/
theorem Leaving.next (hT : T.Exact) (hL : T.Liquid) {inv : Invocation} (h : Leaving T pool w st (holder :: holders))
    (hinv : Withdraws holder (T.balance w.tokens st.shareTokenAddress holder) inv) (hcash : 0 < w.cash T pool st)
    (hfits : NoOverflow T pool w inv.call) :
    let b := T.balance w.tokens st.shareTokenAddress holder
    let paid := Fund.redeemable ⟨w.cash T pool st, st.totalShares⟩ b
    ∃ w', invoke T pool w inv = .ok w' ∧ Leaving T pool w' { st with totalShares := st.totalShares - b } holders ∧
      Left T pool w st [holder] [paid] w' := by
  intro b paid
  obtain ⟨auth, timestamp, call⟩ := inv
  obtain ⟨hcall, hauth⟩ := hinv
  subst hcall
  obtain ⟨hshares, hproduct⟩ := hfits st h.state
  obtain ⟨burned, tokens, hburn, htransfer, hok⟩ :=
    h.withdraw_ok hT hL (show (⟨pool, auth, timestamp⟩ : Env).currentContractAddress = pool from rfl) hauth hcash hshares
      hproduct
  obtain ⟨hfirst, hdistinct⟩ := List.nodup_cons.mp h.distinct
  have hne : pool ≠ holder := fun heq => h.notPool (heq ▸ List.mem_cons_self)
  have hothers : ∀ a, a ≠ pool → a ≠ holder → ∀ t, T.balance tokens t a = T.balance w.tokens t a := by
    intro a ha ha' t
    rw [hT.transfer htransfer, hT.burn hburn, moved_of_ne ha', moved_of_ne ha, moved_of_ne ha', Int.sub_zero,
      Int.sub_zero, Int.add_zero]
  have hrest : ∀ a ∈ holders, T.balance tokens st.shareTokenAddress a = T.balance w.tokens st.shareTokenAddress a :=
    fun a ha => hothers a (fun heq => h.notPool (heq ▸ List.mem_cons_of_mem _ ha)) (fun heq => hfirst (heq ▸ ha)) _
  refine ⟨_, hok, ?_, ?_⟩
  · refine ⟨state?_saveState h.state rfl rfl, h.paused, h.principal, hdistinct,
      fun hmem => h.notPool (List.mem_cons_of_mem _ hmem), fun a ha => ?_, ?_⟩
    · exact (hrest a ha).symm ▸ h.positive a (List.mem_cons_of_mem _ ha)
    · have htotal : b + (holders.map (T.balance w.tokens st.shareTokenAddress)).sum = st.totalShares := h.total
      have hsame : (holders.map (T.balance tokens st.shareTokenAddress)).sum =
          (holders.map (T.balance w.tokens st.shareTokenAddress)).sum := by
        rw [List.map_congr_left hrest]
      show (holders.map (T.balance tokens st.shareTokenAddress)).sum = st.totalShares - b
      omega
  · refine ⟨?_, ?_, .cons ?_ .nil, fun a ha ha' => hothers a ha (List.ne_of_not_mem_cons ha'), rfl⟩
    · rw [List.map_singleton, List.sum_singleton]
      exact state?_saveState h.state rfl rfl
    · show T.balance tokens st.assetAddress pool = w.cash T pool st - [paid].sum
      rw [hT.transfer htransfer, hT.burn hburn, moved_self, moved_of_ne hne, moved_of_ne hne, List.sum_singleton,
        Int.sub_zero, Int.add_zero]
      rfl
    · show T.balance tokens st.assetAddress holder = _
      rw [hT.transfer htransfer, hT.burn hburn, moved_self, moved_of_ne (Ne.symm hne), Int.sub_zero]

theorem Leaving.balance_next {paid : Int} (h : Leaving T pool w st (holder :: holders))
    (hleft : Left T pool w st [holder] [paid] w') (a : Address) (ha : a ∈ holders) (t : Address) :
    T.balance w'.tokens t a = T.balance w.tokens t a := by
  obtain ⟨hholder, -⟩ := List.nodup_cons.mp h.distinct
  exact hleft.others a (fun heq => h.notPool (heq ▸ List.mem_cons_of_mem _ ha))
    (List.mem_singleton.not.mpr fun heq => hholder (heq ▸ ha)) t

/-- A pool that is left by one holder and then by others is left by all of them. -/
theorem Left.cons {b paid : Int} {payouts : List Int} {w'' : World τ} (h : Leaving T pool w st (holder :: order))
    (hb : b = T.balance w.tokens st.shareTokenAddress holder) (hfirst : Left T pool w st [holder] [paid] w')
    (hrest : Left T pool w' { st with totalShares := st.totalShares - b } order payouts w'') :
    Left T pool w st (holder :: order) (paid :: payouts) w'' := by
  obtain ⟨hholder, -⟩ := List.nodup_cons.mp h.distinct
  have hsame : ∀ a ∈ order, ∀ t, T.balance w'.tokens t a = T.balance w.tokens t a := h.balance_next hfirst
  refine ⟨?_, ?_, .cons ?_ ?_, fun a ha ha' t => ?_, ?_⟩
  · rw [hrest.state, List.map_congr_left fun a ha => hsame a ha _, List.map_cons, List.sum_cons, hb, Int.sub_sub]
  · have hcash : w''.cash T pool st = w'.cash T pool st - payouts.sum := hrest.cash
    rw [hcash, hfirst.cash, List.sum_singleton, List.sum_cons, Int.sub_sub]
  · have hpool : holder ≠ pool := fun heq => h.notPool (heq ▸ List.mem_cons_self)
    have hpaid := (List.forall₂_cons.mp hfirst.paid).1
    exact (hrest.others holder hpool hholder st.assetAddress).trans hpaid
  · refine ((List.forall₂_and_left order payouts).mpr ⟨hsame, hrest.paid⟩).imp fun a paid' ⟨hsame, hpaid⟩ => ?_
    rw [← hsame, ← hsame]
    exact hpaid
  · rw [hrest.others a ha fun hmem => ha' (List.mem_cons_of_mem _ hmem),
      hfirst.others a ha (List.mem_singleton.not.mpr fun heq => ha' (heq ▸ List.mem_cons_self))]
  · rw [hrest.events, hfirst.events, List.append_assoc]
    rfl

/-- Holders who are left keep a pool that has cash. -/
theorem Leaving.cash_next {b : Int} (h : Leaving T pool w' { st with totalShares := st.totalShares - b } holders)
    (hb : 0 < b) (hcash : 0 < w.cash T pool st)
    (hleft : Left T pool w st [holder] [Fund.redeemable ⟨w.cash T pool st, st.totalShares⟩ b] w') (hne : holders ≠ []) :
    0 < w'.cash T pool st := by
  obtain ⟨a, rest, rfl⟩ := List.exists_cons_of_ne_nil hne
  have ha : 0 < T.balance w'.tokens st.shareTokenAddress a := h.positive a List.mem_cons_self
  have hrest : 0 ≤ (rest.map (T.balance w'.tokens st.shareTokenAddress)).sum :=
    sum_nonneg_of_positive fun a' ha' => h.positive a' (List.mem_cons_of_mem a ha')
  have htotal : T.balance w'.tokens st.shareTokenAddress a + (rest.map (T.balance w'.tokens st.shareTokenAddress)).sum =
      st.totalShares - b := h.total
  have hworth : 0 < (Fund.payOut ⟨w.cash T pool st, st.totalShares⟩ b).value :=
    Fund.payOut_value_pos hcash (show 0 < st.totalShares by omega) (show b < st.totalShares by omega)
  rw [hleft.cash, List.sum_singleton]
  exact hworth

/-- The holders are paid out of the fund that the earlier ones left. -/
theorem Leaving.run (hT : T.Exact) (hL : T.Liquid) {invs : List Invocation} (h : Leaving T pool w st order)
    (hinvs : List.Forall₂ (fun a inv => Withdraws a (T.balance w.tokens st.shareTokenAddress a) inv) order invs)
    (hcash : order ≠ [] → 0 < w.cash T pool st) (hfits : Along (invoke T pool) (fun w inv => NoOverflow T pool w inv.call) w invs) :
    accepted (invoke T pool) w invs = invs ∧ Left T pool w st order
      (Fund.payAll ⟨w.cash T pool st, st.totalShares⟩ (order.map (T.balance w.tokens st.shareTokenAddress)))
      (run (invoke T pool) w invs) := by
  induction order generalizing invs w st with
  | nil =>
    cases hinvs
    refine ⟨rfl, ?_, (Int.sub_zero _).symm, .nil, fun _ _ _ _ => rfl, (List.append_nil _).symm⟩
    rw [List.map_nil, List.sum_nil, Int.sub_zero]
    exact h.state
  | cons holder order ih =>
    obtain ⟨inv, rest, hinv, hrest, rfl⟩ := List.forall₂_cons_left_iff.mp hinvs
    obtain ⟨hfit, hfits⟩ := hfits
    have hcash : 0 < w.cash T pool st := hcash (List.cons_ne_nil _ _)
    have hb : 0 < T.balance w.tokens st.shareTokenAddress holder := h.positive holder List.mem_cons_self
    obtain ⟨w', hok, hleaving, hleft⟩ := h.next hT hL hinv hcash hfit
    rw [next_of_ok hok] at hfits
    rw [accepted_cons_of_ok hok, run_cons_of_ok hok]
    have hshares : ∀ a ∈ order, T.balance w'.tokens st.shareTokenAddress a = T.balance w.tokens st.shareTokenAddress a :=
      fun a ha => h.balance_next hleft a ha _
    have hrest' : List.Forall₂ (fun a inv => Withdraws a (T.balance w'.tokens st.shareTokenAddress a) inv) order rest :=
      ((List.forall₂_and_left order rest).mpr ⟨hshares, hrest⟩).imp fun a inv ⟨hsame, hinv⟩ => hsame ▸ hinv
    obtain ⟨haccepted, hrun⟩ := ih hleaving hrest' (hleaving.cash_next hb hcash hleft) hfits
    refine ⟨congrArg (inv :: ·) haccepted, ?_⟩
    rw [List.map_congr_left hshares] at hrun
    have hfund : (⟨w'.cash T pool st, st.totalShares - T.balance w.tokens st.shareTokenAddress holder⟩ : Fund) =
        Fund.payOut ⟨w.cash T pool st, st.totalShares⟩ (T.balance w.tokens st.shareTokenAddress holder) := by
      rw [hleft.cash, List.sum_singleton]
      rfl
    exact .cons h rfl hleft (hfund ▸ hrun)

end Withdrawal

/-- Everyone can leave: whoever has the shares of a pool that has cash and no principal out can give them back in any
    order. Each call succeeds, nobody gets less than its shares were worth at the start, and nothing is left. -/
theorem everyone_leaves {τ : Type} {T : TokenContracts τ} (hT : T.Exact) (hL : T.Liquid) (pool : Address) (w : World τ)
    (st : PoolState) (holders : List Address) (h : Leaving T pool w st holders) (hcash : 0 < w.cash T pool st)
    (hne : holders ≠ []) (order : List Address) (hperm : order.Perm holders) (invs : List Invocation)
    (hinvs : List.Forall₂ (fun a inv => Withdraws a (T.balance w.tokens st.shareTokenAddress a) inv) order invs)
    (hfits : Along (invoke T pool) (fun w inv => NoOverflow T pool w inv.call) w invs) :
    accepted (invoke T pool) w invs = invs ∧
    ∃ payouts, Left T pool w st order payouts (run (invoke T pool) w invs) ∧
      List.Forall₂ (fun a paid => T.balance w.tokens st.shareTokenAddress a * w.cash T pool st / st.totalShares ≤ paid)
        order payouts ∧
      payouts.sum = w.cash T pool st ∧
      (run (invoke T pool) w invs).state? = some { st with totalShares := 0 } ∧
      (run (invoke T pool) w invs).cash T pool st = 0 := by
  have horder := h.perm hperm
  have hnil : order ≠ [] := fun heq => hne (List.nil_perm.mp (heq ▸ hperm))
  obtain ⟨haccepted, hleft⟩ := horder.run hT hL hinvs (fun _ => hcash) hfits
  let f : Fund := ⟨w.cash T pool st, st.totalShares⟩
  let shares := order.map (T.balance w.tokens st.shareTokenAddress)
  have hpos : ∀ b ∈ shares, 0 < b := fun b hb => by
    obtain ⟨a, ha, rfl⟩ := List.mem_map.mp hb
    exact horder.positive a ha
  have htotal : shares.sum = f.shares := horder.total
  have hS : 0 < f.shares := by
    obtain ⟨a, rest, rfl⟩ := List.exists_cons_of_ne_nil hnil
    have ha := horder.positive a List.mem_cons_self
    have hrest := sum_nonneg_of_positive fun a' ha' => horder.positive a' (List.mem_cons_of_mem a ha')
    have hsum : T.balance w.tokens st.shareTokenAddress a +
      (rest.map (T.balance w.tokens st.shareTokenAddress)).sum = f.shares := htotal
    omega
  have hsum : (f.payAll shares).sum = w.cash T pool st :=
    Fund.payAll_sum hpos htotal fun heq => hnil (List.map_eq_nil_iff.mp heq)
  have hworth : List.Forall₂ (fun b paid => f.redeemable b ≤ paid) shares (f.payAll shares) :=
    Fund.redeemable_le_payAll hS hpos htotal (.refl f)
  refine ⟨haccepted, f.payAll shares, hleft,
    (List.forall₂_map_left_iff (R := fun b paid => f.redeemable b ≤ paid)).mp hworth, hsum, ?_, ?_⟩
  · rw [hleft.state, horder.total, Int.sub_self]
  · rw [hleft.cash, hsum, Int.sub_self]

section Examples
open Deployment

/-- Two holders of 60 and 13 shares of a pool with 100 BRLT. -/
def repaid : World MockBrltTokens :=
  (run (Ledger.step mockBrlt pool) ledger [initializes, deposits investor 60, deposits bystander 13, repays 1 27]).world

theorem everyone_leaves_two :
    let invs := [⟨signedBy bystander, 0, .withdraw bystander 13⟩, ⟨signedBy investor, 0, .withdraw investor 60⟩]
    (run (invoke mockBrlt pool) repaid invs).events = repaid.events ++ [.withdraw bystander 17, .withdraw investor 83] ∧
      (run (invoke mockBrlt pool) repaid invs).state? = some ⟨admin, operator, brlt, shareToken, 0, 0, false⟩ := by
  intro invs
  refine ⟨by decide, ?_⟩
  obtain ⟨-, payouts, -, -, -, hstate, -⟩ := everyone_leaves mockBrlt_exact mockBrlt_liquid pool repaid
    ⟨admin, operator, brlt, shareToken, 0, 73, false⟩ [investor, bystander]
    ⟨by decide, rfl, rfl, by decide, by decide, by decide, by decide⟩ (by decide) (by decide) [bystander, investor]
    (.swap _ _ _) invs (.cons ⟨rfl, rfl⟩ (.cons ⟨rfl, rfl⟩ .nil)) (by decide)
  exact hstate

/-- A pool that was paid into but has no holders. -/
def unowned : World MockBrltTokens := (run (Ledger.step mockBrlt pool) ledger [initializes, repays 1 50]).world

/-- With nobody to leave, the cash stays. -/
theorem nobody_leaves :
    Leaving mockBrlt pool unowned ⟨admin, operator, brlt, shareToken, 0, 0, false⟩ [] ∧
      unowned.cash mockBrlt pool ⟨admin, operator, brlt, shareToken, 0, 0, false⟩ = 50 ∧
      ¬∃ payouts : List Int, List.Forall₂ (fun a paid => mockBrlt.balance unowned.tokens shareToken a * 50 / 0 ≤ paid) []
        payouts ∧ payouts.sum = 50 := by
  refine ⟨⟨by decide, rfl, rfl, .nil, List.not_mem_nil, nofun, rfl⟩, by decide, ?_⟩
  rintro ⟨payouts, hpaid, hsum⟩
  cases hpaid
  cases hsum

end Examples
end CredBridge.Contracts.LiquidityPool
