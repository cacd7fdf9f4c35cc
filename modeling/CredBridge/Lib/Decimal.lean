import Mathlib

/-! # Decimal numbers

The numbers of a decimal arithmetic: a coefficient and an exponent with a sign, the infinities, and what is not a
number. Results are rounded to the precision, which costs nothing where only zeros are dropped. An operation that the
arithmetic calls invalid gives nothing; the exponents have no bound. -/

structure FiniteDecimal where
  negative : Bool
  coefficient : Nat
  exponent : Int
deriving DecidableEq, Repr

inductive Decimal where
  | finite (x : FiniteDecimal)
  | infinity (negative : Bool)
  | nan
deriving DecidableEq, Repr

inductive Rounding where
  | halfUp
  | halfEven

/-- The coefficient without its last `k` digits. -/
def Rounding.shift (rounding : Rounding) (coefficient k : Nat) : Nat :=
  let q := coefficient / 10 ^ k
  let rem := coefficient % 10 ^ k
  match rounding with
  | .halfUp => if 10 ^ k ≤ 2 * rem then q + 1 else q
  | .halfEven => if 10 ^ k < 2 * rem ∨ 10 ^ k = 2 * rem ∧ q % 2 = 1 then q + 1 else q

namespace FiniteDecimal

def value (x : FiniteDecimal) : Rat := (if x.negative then -1 else 1) * (x.coefficient * 10 ^ x.exponent)

def sign (x : FiniteDecimal) : Int := if x.coefficient = 0 then 0 else if x.negative then -1 else 1

def ofInt (n : Int) : FiniteDecimal := ⟨decide (n < 0), n.natAbs, 0⟩

/-- The whole number towards zero. -/
def truncate (x : FiniteDecimal) : Int :=
  let magnitude := if 0 ≤ x.exponent then x.coefficient * 10 ^ x.exponent.toNat
    else x.coefficient / 10 ^ (-x.exponent).toNat
  if x.negative then -magnitude else magnitude

/-- The coefficient at another exponent. -/
def rescale (rounding : Rounding) (x : FiniteDecimal) (exponent : Int) : Nat :=
  if exponent ≤ x.exponent then x.coefficient * 10 ^ (x.exponent - exponent).toNat
  else rounding.shift x.coefficient (exponent - x.exponent).toNat

def digits (n : Nat) : Nat := Nat.log 10 n + 1

/-- A result, rounded to the precision. -/
def fix (precision : Nat) (x : FiniteDecimal) : FiniteDecimal :=
  if x.coefficient < 10 ^ precision then x
  else
    let k := digits x.coefficient - precision
    let coefficient := Rounding.halfEven.shift x.coefficient k
    if coefficient = 10 ^ precision then ⟨x.negative, 10 ^ (precision - 1), x.exponent + k + 1⟩
    else ⟨x.negative, coefficient, x.exponent + k⟩

def mul (precision : Nat) (x y : FiniteDecimal) : FiniteDecimal :=
  fix precision ⟨x.negative ^^ y.negative, x.coefficient * y.coefficient, x.exponent + y.exponent⟩

/-- An exact quotient loses zeros until its exponent is the difference of the two; at most `n` of them. -/
def strip : (n : Nat) → FiniteDecimal → FiniteDecimal
  | 0, x => x
  | n + 1, x => if x.coefficient % 10 = 0 then strip n ⟨x.negative, x.coefficient / 10, x.exponent + 1⟩ else x

/-- A quotient is worked out to one digit more than the precision; when that is not exact, its last digit says so. -/
def div (precision : Nat) (x y : FiniteDecimal) : Option FiniteDecimal :=
  if y.coefficient = 0 then none
  else if x.coefficient = 0 then some ⟨x.negative ^^ y.negative, 0, x.exponent - y.exponent⟩
  else
    let shift : Int := digits y.coefficient - digits x.coefficient + precision + 1
    let num := x.coefficient * 10 ^ shift.toNat
    let den := y.coefficient * 10 ^ (-shift).toNat
    let q := num / den
    let exponent := x.exponent - y.exponent - shift
    let negative := x.negative ^^ y.negative
    some (fix precision
      (if num % den = 0 then strip shift.toNat ⟨negative, q, exponent⟩
      else ⟨negative, if q % 5 = 0 then q + 1 else q, exponent⟩))

section Exact
variable {precision : Nat} {x y : FiniteDecimal}

theorem value_scale (negative : Bool) (c k : Nat) (e : Int) :
    value ⟨negative, c * 10 ^ k, e⟩ = value ⟨negative, c, e + k⟩ := by
  unfold value
  rw [zpow_add₀ (by norm_num), zpow_natCast]
  push_cast
  ring

theorem shift_of_dvd {c k : Nat} (rounding : Rounding) (h : 10 ^ k ∣ c) : rounding.shift c k = c / 10 ^ k := by
  have hrem : c % 10 ^ k = 0 := Nat.mod_eq_zero_of_dvd h
  have hpos : 0 < 10 ^ k := Nat.pow_pos (by decide)
  cases rounding with
  | halfUp =>
    simp only [Rounding.shift, hrem]
    rw [if_neg (by omega)]
  | halfEven =>
    simp only [Rounding.shift, hrem]
    rw [if_neg (by omega)]

/-- Rounding that drops zeros only. -/
theorem fix_value (hprecision : 0 < precision) (h : 10 ^ (digits x.coefficient - precision) ∣ x.coefficient) :
    (fix precision x).value = x.value := by
  obtain ⟨negative, coefficient, exponent⟩ := x
  unfold fix
  split
  · rfl
  · simp only [shift_of_dvd _ h]
    generalize digits coefficient - precision = k at h
    obtain ⟨c, rfl⟩ := h
    rw [Nat.mul_div_cancel_left _ (Nat.pow_pos (by decide)), Nat.mul_comm, value_scale]
    split
    · next hcarry =>
      obtain ⟨p, rfl⟩ := Nat.exists_eq_succ_of_ne_zero hprecision.ne'
      rw [hcarry, Nat.succ_sub_one, pow_succ, ← pow_one 10, ← pow_mul, one_mul, value_scale, Nat.cast_one]
    · rfl

theorem strip_value (n : Nat) (x : FiniteDecimal) : (strip n x).value = x.value := by
  induction n generalizing x with
  | zero => rfl
  | succ n ih =>
    unfold strip
    split
    · next h =>
      rw [ih, ← Nat.cast_one, ← value_scale, pow_one, Nat.div_mul_cancel (Nat.dvd_of_mod_eq_zero h)]
    · rfl

theorem strip_coefficient_le (n : Nat) (x : FiniteDecimal) : (strip n x).coefficient ≤ x.coefficient := by
  induction n generalizing x with
  | zero => exact Nat.le_refl _
  | succ n ih =>
    unfold strip
    split
    · exact Nat.le_trans (ih _) (Nat.div_le_self _ _)
    · exact Nat.le_refl _

/-- The zeros that may go do. -/
theorem strip_zeros_le {n k : Nat} (hk : k ≤ n) (negative : Bool) (c : Nat) (e : Int) :
    (strip n ⟨negative, c * 10 ^ k, e⟩).coefficient ≤ c := by
  induction k generalizing n e with
  | zero => exact Nat.le_trans (strip_coefficient_le n _) (by simp)
  | succ k ih =>
    obtain ⟨m, rfl⟩ := Nat.exists_eq_succ_of_ne_zero (Nat.ne_of_gt (Nat.lt_of_lt_of_le (Nat.succ_pos k) hk))
    have hzero : c * 10 ^ (k + 1) = c * 10 ^ k * 10 := by rw [pow_succ, Nat.mul_assoc]
    rw [hzero, strip, if_pos (Nat.mul_mod_left _ _), Nat.mul_div_cancel _ (by decide)]
    exact ih (Nat.le_of_succ_le_succ hk) _

/-- A product that fits, but for zeros at its end, is exact. -/
theorem mul_value (hprecision : 0 < precision)
    (h : 10 ^ (digits (x.coefficient * y.coefficient) - precision) ∣ x.coefficient * y.coefficient) :
    (mul precision x y).value = x.value * y.value := by
  unfold mul
  rw [fix_value hprecision h]
  unfold value
  rw [zpow_add₀ (by norm_num)]
  cases x.negative <;> cases y.negative <;> simp <;> ring

/-- A whole number that is the value is what is left of it. -/
theorem truncate_of_value {n : Nat} (hx : x.negative = false) (h : x.value = n) : x.truncate = n := by
  obtain ⟨negative, c, e⟩ := x
  obtain rfl : negative = false := hx
  unfold truncate
  unfold value at h
  simp only [Bool.false_eq_true, if_false, one_mul] at h ⊢
  split
  · next he =>
    obtain ⟨k, rfl⟩ := Int.eq_ofNat_of_zero_le he
    rw [zpow_natCast] at h
    rw [Int.toNat_natCast]
    exact_mod_cast h
  · next he =>
    obtain ⟨k, hk⟩ := Int.eq_ofNat_of_zero_le (show 0 ≤ -e by omega)
    have he : e = -(k : Int) := by omega
    rw [he, zpow_neg, zpow_natCast, ← div_eq_mul_inv, div_eq_iff (pow_ne_zero _ (by norm_num))] at h
    have hc : c = n * 10 ^ k := by exact_mod_cast h
    rw [hk, Int.toNat_natCast, hc, Nat.mul_div_cancel _ (Nat.pow_pos (by decide))]

theorem digits_le {n : Nat} (hn : n ≠ 0) (hfits : n < 10 ^ precision) : digits n ≤ precision :=
  Nat.log_lt_of_lt_pow hn hfits

/-- A whole number that fits is divided exactly by a power of ten. -/
theorem div_pow_value {n k : Nat} (hn : n ≠ 0) (hfits : n < 10 ^ precision) :
    ∃ z, div precision (ofInt n) (ofInt (10 ^ k : Nat)) = some z ∧ z.value = n / 10 ^ k := by
  have hdigits := digits_le hn hfits
  have hpow : digits (10 ^ k) = k + 1 := by rw [digits, Nat.log_pow (by decide)]
  obtain ⟨m, hm⟩ : ∃ m : Nat, (digits (10 ^ k) : Int) - digits n + precision + 1 = (k + m : Nat) :=
    ⟨precision + 2 - digits n, by rw [hpow]; omega⟩
  have hshift : ((k + m : Nat) : Int).toNat = k + m := Int.toNat_natCast _
  have hback : (-((k + m : Nat) : Int)).toNat = 0 := by omega
  have hpos : 0 < 10 ^ k := Nat.pow_pos (by decide)
  have hnum : n * 10 ^ (k + m) = n * 10 ^ m * 10 ^ k := by rw [pow_add]; ring
  unfold div
  simp only [ofInt, Int.natAbs_natCast, if_neg hn, if_neg hpos.ne', hm, hshift, hback, pow_zero, Nat.mul_one, hnum,
    Nat.mul_div_cancel _ hpos, Nat.mul_mod_left, if_true]
  refine ⟨_, rfl, ?_⟩
  rw [fix, if_pos (Nat.lt_of_le_of_lt (strip_zeros_le (Nat.le_add_left m k) _ n _) hfits), strip_value, value_scale]
  have hexponent : (0 : Int) - 0 - (k + m : Nat) + m = -(k : Int) := by omega
  have hpositive : ∀ j : Nat, (decide ((j : Int) < 0)) = false := fun j => decide_eq_false (by omega)
  rw [hexponent, hpositive, hpositive, value]
  simp [zpow_neg, div_eq_mul_inv]

end Exact
end FiniteDecimal

namespace Decimal

/-- Not-a-number has no order. -/
def sign? : Decimal → Option Int
  | .finite x => some x.sign
  | .infinity negative => some (if negative then -1 else 1)
  | .nan => none

/-- The number at another exponent, where it fits. -/
def quantize (precision : Nat) (rounding : Rounding) (exponent : Int) : Decimal → Option Decimal
  | .finite x =>
    let coefficient := x.rescale rounding exponent
    if coefficient < 10 ^ precision then some (.finite ⟨x.negative, coefficient, exponent⟩) else none
  | .infinity _ => none
  | .nan => some .nan

end Decimal
