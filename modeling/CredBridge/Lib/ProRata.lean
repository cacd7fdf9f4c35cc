import Mathlib

/-! # Pro rata funds

A fund is worth some value, divided into shares. Paying in `a` mints `a * shares / value` new shares (the
first payment one for each unit), and giving back `b` shares pays out `b * value / shares`, both rounded
down. Each rounding is against the one who acts: the value per share, compared by cross multiplication,
never falls, and a fund that is worth at least one unit a share stays so. Those who give back all shares, in
any order, are paid all of the fund, and each of them at least what its shares were worth at the start. -/

structure Fund where
  value : Int
  shares : Int
deriving DecidableEq

namespace Fund

def minted (f : Fund) (a : Int) : Int := if f.shares = 0 then a else a * f.shares / f.value

def payIn (f : Fund) (a : Int) : Fund := ⟨f.value + a, f.shares + f.minted a⟩

def redeemable (f : Fund) (s : Int) : Int := s * f.value / f.shares

def payOut (f : Fund) (b : Int) : Fund := ⟨f.value - f.redeemable b, f.shares - b⟩

/-- What is paid out when some shares are given back after the others. -/
def payAll (f : Fund) : List Int → List Int
  | [] => []
  | b :: bs => f.redeemable b :: (f.payOut b).payAll bs

/-- A share of `g` is worth at least a share of `f`, without dividing. -/
def NotDiluted (f g : Fund) : Prop := f.value * g.shares ≤ g.value * f.shares

def AtPar (f : Fund) : Prop := f.shares ≤ f.value

section Rounding
variable {f g : Fund} {a b s : Int}

theorem value_mul_minted_le (hS : 0 < f.shares) (hN : 0 < f.value) : f.value * f.minted a ≤ a * f.shares := by
  unfold minted
  rw [if_neg (ne_of_gt hS), Int.mul_comm]
  exact Int.ediv_mul_le _ (ne_of_gt hN)

theorem redeemable_mul_le (hS : 0 < f.shares) : f.redeemable s * f.shares ≤ s * f.value :=
  Int.ediv_mul_le _ (ne_of_gt hS)

theorem payIn_notDiluted (hS : 0 < f.shares) (hN : 0 < f.value) : NotDiluted f (f.payIn a) := by
  have h : f.value * f.minted a ≤ a * f.shares := value_mul_minted_le hS hN
  show f.value * (f.shares + f.minted a) ≤ (f.value + a) * f.shares
  linarith [h]

theorem payOut_notDiluted (hS : 0 < f.shares) : NotDiluted f (f.payOut b) := by
  have h : f.redeemable b * f.shares ≤ b * f.value := redeemable_mul_le hS
  show f.value * (f.shares - b) ≤ (f.value - f.redeemable b) * f.shares
  linarith [h]

/-- What some shares can be redeemed for does not fall when they are not diluted. -/
theorem NotDiluted.redeemable_le (h : NotDiluted f g) (hf : 0 < f.shares) (hg : 0 < g.shares) (hs : 0 ≤ s) :
    f.redeemable s ≤ g.redeemable s := by
  have hq : f.redeemable s * f.shares ≤ s * f.value := redeemable_mul_le hf
  refine (Int.le_ediv_iff_mul_le hg).mpr (le_of_mul_le_mul_right ?_ hf)
  calc f.redeemable s * g.shares * f.shares
      = f.redeemable s * f.shares * g.shares := by ring
    _ ≤ s * f.value * g.shares := mul_le_mul_of_nonneg_right hq (le_of_lt hg)
    _ = s * (f.value * g.shares) := by ring
    _ ≤ s * (g.value * f.shares) := mul_le_mul_of_nonneg_left h hs
    _ = s * g.value * f.shares := by ring

/-- A fund of which each unit of value stands for `k` shares at most stays one while its shares are not diluted. -/
theorem NotDiluted.shares_le (h : NotDiluted f g) (hN : 0 < f.value) (hg : 0 ≤ g.value) {k : Int}
    (hk : f.shares ≤ f.value * k) : g.shares ≤ g.value * k := by
  refine le_of_mul_le_mul_left ?_ hN
  calc f.value * g.shares ≤ g.value * f.shares := h
    _ ≤ g.value * (f.value * k) := mul_le_mul_of_nonneg_left hk hg
    _ = f.value * (g.value * k) := by ring

theorem minted_le_of_atPar (h : f.AtPar) (hN : 0 < f.value ∨ f.shares = 0) (ha : 0 ≤ a) : f.minted a ≤ a := by
  unfold minted
  split
  · exact le_refl a
  · next hS =>
    have hN : 0 < f.value := hN.resolve_right hS
    exact Int.ediv_le_of_le_mul hN (mul_le_mul_of_nonneg_left h ha)

theorem minted_nonneg (hN : 0 < f.value ∨ f.shares = 0) (hS : 0 ≤ f.shares) (ha : 0 ≤ a) : 0 ≤ f.minted a := by
  unfold minted
  split
  · exact ha
  · next hne => exact Int.ediv_nonneg (mul_nonneg ha hS) (le_of_lt (hN.resolve_right hne))

theorem atPar_payOut (h : f.AtPar) (hS : 0 < f.shares) (hb : b ≤ f.shares) : (f.payOut b).AtPar := by
  have hprod : 0 ≤ (f.shares - b) * (f.value - f.shares) :=
    mul_nonneg (Int.sub_nonneg.mpr hb) (Int.sub_nonneg.mpr h)
  have hle : f.redeemable b ≤ f.value - (f.shares - b) :=
    Int.ediv_le_of_le_mul hS (by linarith [hprod])
  show f.shares - b ≤ f.value - f.redeemable b
  linarith [hle]

theorem one_le_minted_iff (hS : 0 < f.shares) (hN : 0 < f.value) : 1 ≤ f.minted a ↔ f.value ≤ a * f.shares := by
  unfold minted
  rw [if_neg (ne_of_gt hS), Int.le_ediv_iff_mul_le hN, one_mul]

/-- What was just paid in is not redeemed with a gain. -/
theorem redeemable_minted_le (hS : 0 < f.shares) (hN : 0 < f.value) (ha : 0 ≤ a) :
    (f.payIn a).redeemable (f.minted a) ≤ a := by
  have hminted : 0 ≤ f.minted a := minted_nonneg (.inl hN) (le_of_lt hS) ha
  have hle : f.value * f.minted a ≤ a * f.shares := value_mul_minted_le hS hN
  refine Int.ediv_le_of_le_mul (add_pos_of_pos_of_nonneg hS hminted) ?_
  show f.minted a * (f.value + a) ≤ a * (f.shares + f.minted a)
  linarith [hle]

/-- The first to pay in redeems what was there before, too. -/
theorem redeemable_first (hS : f.shares = 0) (ha : 0 < a) : (f.payIn a).redeemable (f.minted a) = f.value + a := by
  have hminted : f.minted a = a := if_pos hS
  unfold redeemable payIn
  rw [hminted, hS, zero_add]
  exact Int.mul_ediv_cancel_left _ (ne_of_gt ha)

end Rounding

section Draining
variable {f g h : Fund} {b s : Int} {bs : List Int}

theorem NotDiluted.refl (f : Fund) : NotDiluted f f := le_refl _

theorem NotDiluted.trans (hfg : NotDiluted f g) (hgh : NotDiluted g h) (hf : 0 ≤ f.shares) (hg : 0 < g.shares)
    (hh : 0 ≤ h.shares) : NotDiluted f h := by
  refine le_of_mul_le_mul_right ?_ hg
  calc f.value * h.shares * g.shares
      = f.value * g.shares * h.shares := by ring
    _ ≤ g.value * f.shares * h.shares := mul_le_mul_of_nonneg_right hfg hh
    _ = g.value * h.shares * f.shares := by ring
    _ ≤ h.value * g.shares * f.shares := mul_le_mul_of_nonneg_right hgh hf
    _ = h.value * f.shares * g.shares := by ring

/-- Shares that are left are worth something. -/
theorem payOut_value_pos (hN : 0 < f.value) (hS : 0 < f.shares) (hb : b < f.shares) : 0 < (f.payOut b).value := by
  have hleft : 0 < f.value * (f.shares - b) := mul_pos hN (Int.sub_pos.mpr hb)
  have hworth : 0 < (f.payOut b).value * f.shares := lt_of_lt_of_le hleft (payOut_notDiluted hS)
  exact (pos_iff_pos_of_mul_pos hworth).mpr hS

theorem redeemable_all (hS : 0 < f.shares) : f.redeemable f.shares = f.value :=
  Int.mul_ediv_cancel_left _ (ne_of_gt hS)

theorem payAll_sum (hpos : ∀ b ∈ bs, 0 < b) (hsum : bs.sum = f.shares) (hne : bs ≠ []) :
    (f.payAll bs).sum = f.value := by
  induction bs generalizing f with
  | nil => exact absurd rfl hne
  | cons b bs ih =>
    rw [List.sum_cons] at hsum
    show f.redeemable b + ((f.payOut b).payAll bs).sum = f.value
    rcases List.eq_nil_or_concat bs with rfl | ⟨_, _, hcons⟩
    · -- The last one gives back all the shares there are.
      have hb : b = f.shares := by simpa using hsum
      have hS : 0 < f.shares := hb ▸ hpos b List.mem_cons_self
      rw [hb, redeemable_all hS]
      exact Int.add_zero _
    · have hrest : bs.sum = (f.payOut b).shares := eq_sub_of_add_eq' hsum
      rw [ih (fun b' hb' => hpos b' (List.mem_cons_of_mem _ hb')) hrest (by simp [hcons])]
      show f.redeemable b + (f.value - f.redeemable b) = f.value
      omega

/-- Nobody is paid less than at the start. -/
theorem redeemable_le_payAll (hf : 0 < f.shares) (hpos : ∀ b ∈ bs, 0 < b) (hsum : bs.sum = g.shares)
    (hfg : NotDiluted f g) : List.Forall₂ (fun b p => f.redeemable b ≤ p) bs (g.payAll bs) := by
  induction bs generalizing g with
  | nil => exact .nil
  | cons b bs ih =>
    have hrest : bs.sum = (g.payOut b).shares := eq_sub_of_add_eq' ((List.sum_cons).symm.trans hsum)
    have hb : 0 < b := hpos b List.mem_cons_self
    have hbs : ∀ b' ∈ bs, 0 < b' := fun b' hb' => hpos b' (List.mem_cons_of_mem _ hb')
    have hleft : 0 ≤ (g.payOut b).shares := hrest ▸ List.sum_nonneg fun b' hb' => le_of_lt (hbs b' hb')
    have hg : 0 < g.shares := lt_of_lt_of_le hb (Int.sub_nonneg.mp hleft)
    refine .cons (hfg.redeemable_le hf hg (le_of_lt hb)) (ih hbs hrest ?_)
    exact hfg.trans (payOut_notDiluted hg) (le_of_lt hf) hg hleft

end Draining

/-! ### Splitting

What is paid in or given back in parts fetches no more than it would at once, since each part leaves the shares at least
as valuable as before. -/

section Splitting
variable {f g : Fund} {as bs : List Int}

theorem payIn_shares_pos (hS : 0 < f.shares) (hN : 0 < f.value) {a : Int} (ha : 0 ≤ a) : 0 < (f.payIn a).shares :=
  add_pos_of_pos_of_nonneg hS (minted_nonneg (.inl hN) (le_of_lt hS) ha)

theorem foldl_payIn_value : (as.foldl payIn f).value = f.value + as.sum := by
  induction as generalizing f with
  | nil => simp
  | cons a as ih =>
    simp only [List.foldl_cons, List.sum_cons, ih, payIn]
    omega

theorem foldl_payIn_notDiluted (hS : 0 < f.shares) (hN : 0 < f.value) (hpos : ∀ a ∈ as, 0 ≤ a) :
    0 < (as.foldl payIn f).shares ∧ NotDiluted f (as.foldl payIn f) := by
  induction as generalizing f with
  | nil => exact ⟨hS, .refl f⟩
  | cons a as ih =>
    simp only [List.forall_mem_cons] at hpos
    have hS' : 0 < (f.payIn a).shares := payIn_shares_pos hS hN hpos.1
    have hN' : 0 < (f.payIn a).value := add_pos_of_pos_of_nonneg hN hpos.1
    obtain ⟨hlast, hnot⟩ := ih hS' hN' hpos.2
    exact ⟨hlast, (payIn_notDiluted hS hN).trans hnot (le_of_lt hS) hS' (le_of_lt hlast)⟩

/-- Paid in in parts, a sum mints no more shares than at once. -/
theorem foldl_payIn_shares_le (hS : 0 < f.shares) (hN : 0 < f.value) (hpos : ∀ a ∈ as, 0 ≤ a) :
    (as.foldl payIn f).shares - f.shares ≤ f.minted as.sum := by
  obtain ⟨-, hnot⟩ := foldl_payIn_notDiluted hS hN hpos
  unfold NotDiluted at hnot
  rw [foldl_payIn_value] at hnot
  unfold minted
  rw [if_neg (ne_of_gt hS), Int.le_ediv_iff_mul_le hN]
  linarith [hnot]

theorem foldl_payOut_shares : (bs.foldl payOut f).shares = f.shares - bs.sum := by
  induction bs generalizing f with
  | nil => simp
  | cons b bs ih =>
    simp only [List.foldl_cons, List.sum_cons, ih, payOut]
    omega

theorem foldl_payOut_notDiluted (hpos : ∀ b ∈ bs, 0 < b) (hle : bs.sum ≤ f.shares) :
    NotDiluted f (bs.foldl payOut f) := by
  induction bs generalizing f with
  | nil => exact .refl f
  | cons b bs ih =>
    simp only [List.forall_mem_cons] at hpos
    rw [List.sum_cons] at hle
    have hrest : 0 ≤ bs.sum := List.sum_nonneg fun b' hb' => le_of_lt (hpos.2 b' hb')
    have hS : 0 < f.shares := by omega
    have hleft : bs.sum ≤ (f.payOut b).shares := by
      simp only [payOut]
      omega
    rcases List.eq_nil_or_concat bs with rfl | ⟨_, _, hcons⟩
    · exact payOut_notDiluted hS
    · have hmore : 0 < bs.sum := List.sum_pos bs hpos.2 (by simp [hcons])
      refine (payOut_notDiluted hS).trans (ih hpos.2 hleft) (le_of_lt hS) (lt_of_lt_of_le hmore hleft) ?_
      rw [foldl_payOut_shares, List.sum_cons]
      exact Int.sub_nonneg.mpr hle

/-- Given back in parts, shares are paid no more than at once. -/
theorem foldl_payOut_value_le (hS : 0 < f.shares) (hpos : ∀ b ∈ bs, 0 < b) (hle : bs.sum ≤ f.shares) :
    f.value - (bs.foldl payOut f).value ≤ f.redeemable bs.sum := by
  have hnot := foldl_payOut_notDiluted hpos hle
  unfold NotDiluted at hnot
  rw [foldl_payOut_shares] at hnot
  unfold redeemable
  rw [Int.le_ediv_iff_mul_le hS]
  linarith [hnot]

end Splitting
end Fund
