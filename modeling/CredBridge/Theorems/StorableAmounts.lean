import Mathlib
import CredBridge.PixService.Money
import CredBridge.PixService.Orders

/-! # Which accepted amounts are exact and fit in the column

The validation bounds the decimals of an amount and not its size. What it lets through is a whole number of cents; the
arithmetic takes it there and back without a loss as long as it has the digits, and the column holds it as long as it
has the bits. -/

namespace CredBridge.PixService.Money
open Result

/-- The cents that the conversion makes of the amount are the amount, and the column holds them. -/
def Exact (amount : Amount) : Prop :=
  ∃ cents, brlToCents amount = .ok cents ∧ 1 ≤ cents ∧ cents ≤ 2 ^ 31 - 1 ∧
    ∃ x y, amount.decimal = .finite x ∧ centsToBrlDecimal cents = .ok y ∧ y.value = x.value

/-- The cents of a number with two decimals at most. -/
def cents (x : FiniteDecimal) : Nat := x.coefficient * 10 ^ (x.exponent + 2).toNat

section Amounts
variable {amount : Amount} {x : FiniteDecimal}

theorem signalling_eq_ok {α : Type} {result : Option α} {a : α} : signalling result = .ok a ↔ result = some a := orThrow_eq_ok

/-- What the schemas let through. -/
theorem accepts_finite (h : accepts amount = true) (hx : amount.decimal = .finite x) :
    x.negative = false ∧ x.coefficient ≠ 0 ∧ -2 ≤ x.exponent := by
  unfold accepts at h
  rw [Bool.and_eq_true, toOption_isSome] at h
  obtain ⟨hpositive, _, hvalid⟩ := h
  obtain ⟨sign, -, hvalid⟩ := bind_eq_ok.mp hvalid
  obtain ⟨-, hvalid⟩ := throwIf_bind_eq_ok.mp hvalid
  rw [hx] at hpositive hvalid
  have hexponent := throwIf_eq_ok.mp hvalid
  have hsign : 0 < x.sign := by simpa [Decimal.sign?] using hpositive
  unfold FiniteDecimal.sign at hsign
  refine ⟨?_, ?_, by omega⟩
  · grind
  · grind

theorem cents_ne_zero (hcoefficient : x.coefficient ≠ 0) : cents x ≠ 0 :=
  Nat.mul_ne_zero hcoefficient (Nat.pos_iff_ne_zero.mp (Nat.pow_pos (by decide)))

theorem value_cents (hnegative : x.negative = false) (hexponent : -2 ≤ x.exponent) : x.value = cents x / 100 := by
  obtain ⟨negative, coefficient, exponent⟩ := x
  obtain rfl : negative = false := hnegative
  replace hexponent : -2 ≤ exponent := hexponent
  obtain ⟨k, hk⟩ := Int.eq_ofNat_of_zero_le (show 0 ≤ exponent + 2 by omega)
  obtain rfl : exponent = k - 2 := by omega
  rw [cents, FiniteDecimal.value]
  simp only [Bool.false_eq_true, if_false, one_mul, hk, Int.toNat_natCast]
  rw [zpow_sub₀ (by norm_num), zpow_natCast]
  push_cast
  ring

theorem quantize_finite (hexponent : -2 ≤ x.exponent) : (Decimal.finite x).quantize precision .halfUp (-2) =
    if cents x < 10 ^ precision then some (.finite ⟨x.negative, cents x, -2⟩) else none := by
  have hrescale : x.rescale .halfUp (-2) = cents x := by
    rw [FiniteDecimal.rescale, if_pos hexponent, cents, Int.sub_neg]
  unfold Decimal.quantize
  simp only [hrescale]

theorem fix_negative (p : Nat) (x : FiniteDecimal) : (x.fix p).negative = x.negative := by
  unfold FiniteDecimal.fix
  split
  · rfl
  · simp only
    split <;> rfl

/-- A product with a hundred may have two digits more than the precision, and these are zeros. -/
theorem truncate_timesHundred {n : Nat} (hn : n ≠ 0) (hfits : n < 10 ^ precision) :
    (FiniteDecimal.mul precision ⟨false, n, -2⟩ (.ofInt 100)).truncate = n := by
  have hdigits : FiniteDecimal.digits (n * 100) ≤ precision + 2 :=
    FiniteDecimal.digits_le (by omega) (by rw [pow_add]; omega)
  have hzeros : 10 ^ (FiniteDecimal.digits (n * 100) - precision) ∣ n * 100 :=
    Dvd.dvd.mul_left (Nat.pow_dvd_pow (n := 2) 10 (by omega)) n
  refine FiniteDecimal.truncate_of_value (fix_negative _ _) ?_
  rw [FiniteDecimal.mul_value (by decide) hzeros]
  simp only [FiniteDecimal.value, FiniteDecimal.ofInt]
  norm_num
  ring

theorem brlToCents_of_fits (h : accepts amount = true) (hx : amount.decimal = .finite x)
    (hfits : cents x < 10 ^ precision) : brlToCents amount = .ok (cents x) := by
  obtain ⟨hnegative, hcoefficient, hexponent⟩ := accepts_finite h hx
  have hcents := cents_ne_zero hcoefficient
  unfold brlToCents
  rw [hx, quantize_finite hexponent, if_pos hfits, hnegative]
  refine bind_eq_ok.mpr ⟨_, rfl, bind_eq_ok.mpr ⟨1, ?_, ?_⟩⟩
  · simp [signalling, orThrow, Decimal.sign?, FiniteDecimal.sign, hcents]
  · exact congrArg Except.ok (truncate_timesHundred hcents hfits)

theorem centsToBrlDecimal_of_fits {n : Nat} (hn : n ≠ 0) (hfits : n < 10 ^ precision) :
    ∃ y, centsToBrlDecimal n = .ok y ∧ y.value = n / 100 := by
  obtain ⟨y, hdiv, hvalue⟩ := FiniteDecimal.div_pow_value (k := 2) hn hfits
  refine ⟨y, signalling_eq_ok.mpr hdiv, hvalue.trans ?_⟩
  norm_num

/-! ### Withdrawals -/

/-- The conversion of the value, as the orders make it, is that of the decimal. -/
theorem brlToCents_value (py : Python) (n : Nat) : PixService.brlToCents py (n / 100) = .ok n := by
  have hnonneg : ¬((n : Rat) / 100 < 0) := not_lt.mpr (div_nonneg (Nat.cast_nonneg n) (by norm_num))
  have hfloor : ((n : Rat) / 100 * 100 + 1 / 2).floor = n := by
    have hhalf : (n : Rat) / 100 * 100 + 1 / 2 = n + 1 / 2 := by ring
    rw [hhalf]
    apply le_antisymm
    · by_contra hlt
      have hnext := Rat.le_floor_iff.mp (Int.add_one_le_of_lt (not_le.mp hlt))
      push_cast at hnext
      linarith
    · exact Rat.le_floor_iff.mpr (by push_cast; linarith)
  unfold PixService.brlToCents
  rw [if_neg hnonneg, hfloor]
  exact throwIf_bind_eq_ok.mpr ⟨by omega, rfl⟩

/-- A new withdrawal that the provider took fails for want of bits if its amount is accepted and not storable. -/
theorem withdrawal_not_stored {request : CreateWithdrawalOrderRequest} (h : accepts amount = true)
    (hx : amount.decimal = .finite x) (hrequest : request.amount = x.value) (hlarge : 2147483647 / 100 < x.value)
    {py : Python} {settings : Settings} {fresh : Fresh} {db : Db}
    (hnew : findOrderByExternalId db request.externalId = none) (out : PixOutResult) (db' : Db) :
    createWithdrawal py settings fresh db request (.ok ()) (.ok out) ≠ .ok db' := by
  obtain ⟨hnegative, hcoefficient, hexponent⟩ := accepts_finite h hx
  have hvalue := value_cents hnegative hexponent
  have hcents : 2147483647 < cents x := by
    have hlt : (2147483647 : Rat) < cents x := by linarith
    exact_mod_cast hlt
  intro hstored
  unfold createWithdrawal at hstored
  rw [hnew, hrequest, hvalue, brlToCents_value] at hstored
  obtain ⟨_, hn, hstored⟩ := bind_eq_ok.mp hstored
  cases hn
  obtain ⟨_, -, hstored⟩ := bind_eq_ok.mp hstored
  obtain ⟨_, -, hstored⟩ := bind_eq_ok.mp hstored
  obtain ⟨_, hinsert, -⟩ := bind_eq_ok.mp hstored
  obtain ⟨-, hinsert⟩ := throwIf_bind_eq_ok.mp hinsert
  obtain ⟨hstorable, -⟩ := throwIf_bind_eq_ok.mp hinsert
  simp only [Bool.not_eq_false, PixOrder.storable, Bool.and_eq_true, decide_eq_true_iff] at hstorable
  have hfits : (cents x : Int) < 2 ^ 31 := hstorable.1.2
  omega

theorem value_le_of_exact (h : Exact amount) : ∃ x, amount.decimal = .finite x ∧ x.value ≤ 2147483647 / 100 := by
  obtain ⟨n, -, hpositive, hbound, x, y, hx, hback, hvalue⟩ := h
  refine ⟨x, hx, ?_⟩
  obtain ⟨k, rfl⟩ := Int.eq_ofNat_of_zero_le (show 0 ≤ n by omega)
  obtain ⟨z, hz, hcents⟩ := centsToBrlDecimal_of_fits (n := k) (by omega)
    (Nat.lt_of_lt_of_le (show k < 2 ^ 31 by omega) (by decide))
  cases hback.symm.trans hz
  have hk : (k : Rat) ≤ 2147483647 := by exact_mod_cast (show k ≤ 2147483647 by omega)
  rw [← hvalue, hcents]
  linarith

theorem exact_of_value_le (h : accepts amount = true) (hx : amount.decimal = .finite x)
    (hbound : x.value ≤ 2147483647 / 100) : Exact amount := by
  obtain ⟨hnegative, hcoefficient, hexponent⟩ := accepts_finite h hx
  have hvalue := value_cents hnegative hexponent
  have hcents : cents x ≤ 2147483647 := by
    have hle : (cents x : Rat) ≤ 2147483647 := by linarith
    exact_mod_cast hle
  have hpositive := Nat.pos_of_ne_zero (cents_ne_zero hcoefficient)
  have hfits : cents x < 10 ^ precision := Nat.lt_of_le_of_lt hcents (by decide)
  obtain ⟨y, hback, hy⟩ := centsToBrlDecimal_of_fits hpositive.ne' hfits
  exact ⟨cents x, brlToCents_of_fits h hx hfits, by omega, by omega, x, y, hx, hback, hy.trans hvalue.symm⟩

/-- An amount that the schemas accept is exact and storable exactly if it is a number of at most 21474836.47. -/
theorem exact_iff (amount : Amount) (h : accepts amount = true) :
    Exact amount ↔ ∃ x, amount.decimal = .finite x ∧ x.value ≤ 2147483647 / 100 := by
  constructor
  · exact value_le_of_exact
  · rintro ⟨x, hx, hbound⟩
    exact exact_of_value_le h hx hbound

end Amounts

section Examples

def amountOf (text : String) (coefficient : Nat) (exponent : Int) : Amount :=
  ⟨text, .finite ⟨false, coefficient, exponent⟩⟩

theorem exact_iff_cents : Exact (amountOf "150.5" 1505 (-1)) :=
  (exact_iff (amountOf "150.5" 1505 (-1)) (by decide)).mpr ⟨_, rfl, by norm_num [FiniteDecimal.value]⟩

def largeAmount : Amount := amountOf "21474836.48" 2147483648 (-2)

def largeWithdrawal : CreateWithdrawalOrderRequest :=
  ⟨"withdrawal", "owner", .pme, 2147483648 / 100, "pix@example.com", "EMAIL", none, none⟩

/-- One cent more than the column holds is accepted, sent to the provider, and then not stored; and what is infinite is
    accepted too. -/
theorem large_not_exact :
    (accepts largeAmount = true ∧ ¬Exact largeAmount ∧ ∀ py settings fresh db',
      createWithdrawal py settings fresh .empty largeWithdrawal (.ok ()) (.ok ⟨"payment", "PROCESSING"⟩) ≠ .ok db') ∧
    accepts ⟨"inf", .infinity false⟩ = true ∧ ¬Exact ⟨"inf", .infinity false⟩ := by
  have haccepts : accepts largeAmount = true := by decide
  have hvalue : (⟨false, 2147483648, -2⟩ : FiniteDecimal).value = 2147483648 / 100 := by norm_num [FiniteDecimal.value]
  have hlarge : 2147483647 / 100 < (⟨false, 2147483648, -2⟩ : FiniteDecimal).value := by
    rw [hvalue]
    norm_num
  refine ⟨⟨haccepts, fun hexact => ?_, fun py settings fresh db' => ?_⟩, by decide, fun hexact => ?_⟩
  · obtain ⟨x, hx, hbound⟩ := value_le_of_exact hexact
    cases hx
    exact absurd hlarge (not_lt.mpr hbound)
  · exact withdrawal_not_stored haccepts rfl hvalue.symm hlarge rfl _ db'
  · obtain ⟨x, hx, -⟩ := value_le_of_exact hexact
    cases hx

end Examples
end CredBridge.PixService.Money
