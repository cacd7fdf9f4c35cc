import Mathlib

/-! # Hexadecimal digits

Bytes written with two lower-case digits each, and read back from digits of either case. -/

namespace Hex

def digit (n : Nat) : Char := "0123456789abcdef".toList.getD n '0'

def isDigit (c : Char) : Bool :=
  decide ('0' ≤ c ∧ c ≤ '9' ∨ 'a' ≤ c ∧ c ≤ 'f' ∨ 'A' ≤ c ∧ c ≤ 'F')

def value (c : Char) : Nat :=
  if 'a' ≤ c then c.toNat - 'a'.toNat + 10
  else if 'A' ≤ c then c.toNat - 'A'.toNat + 10
  else c.toNat - '0'.toNat

def encodeByte (b : UInt8) : List Char := [digit (b.toNat / 16), digit (b.toNat % 16)]

def encode (bytes : List UInt8) : List Char := bytes.flatMap encodeByte

/-- The bytes of pairs of digits; a digit that is left over is dropped. -/
def decode : List Char → List UInt8
  | h :: l :: rest => UInt8.ofNat (16 * value h + value l) :: decode rest
  | _ => []

/-- The bytes of pairs of digits, up to the first pair that is none. -/
def decodeWhile : List Char → List UInt8
  | h :: l :: rest =>
    if isDigit h && isDigit l then UInt8.ofNat (16 * value h + value l) :: decodeWhile rest else []
  | _ => []

/-- The character of a UTF-16 unit's low byte, which is all that is looked at. -/
def lowByte (unit : Nat) : Char := Char.ofNat (unit % 256)

/-- The bytes of a text that is given in UTF-16 units. -/
def decodeUnits (units : List Nat) : List UInt8 := decodeWhile (units.map lowByte)

theorem lowByte_toNat {c : Char} (h : c.toNat < 128) : lowByte c.toNat = c := by
  rw [lowByte, Nat.mod_eq_of_lt (Nat.lt_trans h (by decide)), Char.ofNat_toNat]

theorem value_digit {n : Nat} (hn : n < 16) : value (digit n) = n := by
  interval_cases n <;> rfl

theorem isDigit_digit {n : Nat} (hn : n < 16) : isDigit (digit n) = true := by
  interval_cases n <;> rfl

theorem isDigit_of_mem_encode {bytes : List UInt8} {c : Char} (h : c ∈ encode bytes) : isDigit c = true := by
  obtain ⟨b, -, hc⟩ := List.mem_flatMap.mp h
  have hb := b.toNat_lt
  simp only [encodeByte, List.mem_cons, List.not_mem_nil, or_false] at hc
  rcases hc with rfl | rfl
  · exact isDigit_digit (by omega)
  · exact isDigit_digit (Nat.mod_lt _ (by decide))

theorem length_encode (bytes : List UInt8) : (encode bytes).length = 2 * bytes.length := by
  induction bytes with
  | nil => rfl
  | cons b bytes ih =>
    rw [encode, List.flatMap_cons, List.length_append, ← encode, ih, List.length_cons]
    simp only [encodeByte, List.length_cons, List.length_nil]
    omega

theorem toNat_lt_of_isDigit {c : Char} (h : isDigit c = true) : c.toNat < 128 := by
  simp only [isDigit, decide_eq_true_eq, Char.le_def, UInt32.le_iff_toNat_le] at h
  rw [← Char.toNat_val]
  rcases h with h | h | h
  · exact Nat.lt_of_le_of_lt h.2 (by decide)
  · exact Nat.lt_of_le_of_lt h.2 (by decide)
  · exact Nat.lt_of_le_of_lt h.2 (by decide)

theorem decode_encode (bytes : List UInt8) : decode (encode bytes) = bytes := by
  induction bytes with
  | nil => rfl
  | cons b bytes ih =>
    have hhigh : value (digit (b.toNat / 16)) = b.toNat / 16 := value_digit (by have := b.toNat_lt; omega)
    have hlow : value (digit (b.toNat % 16)) = b.toNat % 16 := value_digit (Nat.mod_lt _ (by decide))
    show UInt8.ofNat (16 * value (digit (b.toNat / 16)) + value (digit (b.toNat % 16))) :: decode (encode bytes) = _
    rw [hhigh, hlow, ih, Nat.div_add_mod, UInt8.ofNat_toNat]

/-- Decoding stops at a pair that does not start with a digit, after the bytes of the pairs before it. -/
theorem length_decodeWhile {digits : List Char} {n : Nat} (hlength : digits.length = 2 * n)
    (hdigits : ∀ c ∈ digits, isDigit c = true) {stop : Char} (hstop : isDigit stop = false) (rest : List Char) :
    (decodeWhile (digits ++ stop :: rest)).length = n := by
  induction n generalizing digits with
  | zero =>
    obtain rfl := List.length_eq_zero_iff.mp hlength
    cases rest with
    | nil => rfl
    | cons c rest =>
      show (if isDigit stop && isDigit c then _ else []).length = 0
      rw [hstop]
      rfl
  | succ n ih =>
    obtain _ | ⟨h, _ | ⟨l, digits⟩⟩ := digits
    · simp at hlength
    · simp at hlength
      omega
    · have hlength : digits.length = 2 * n := by
        simp only [List.length_cons] at hlength
        omega
      have hh : isDigit h = true := hdigits h List.mem_cons_self
      have hl : isDigit l = true := hdigits l (List.mem_cons_of_mem _ List.mem_cons_self)
      have hrest : ∀ c ∈ digits, isDigit c = true := fun c hc =>
        hdigits c (List.mem_cons_of_mem _ (List.mem_cons_of_mem _ hc))
      show (if isDigit h && isDigit l then _ :: decodeWhile (digits ++ stop :: rest) else []).length = n + 1
      rw [hh, hl]
      exact congrArg (· + 1) (ih hlength hrest)

/-- All pairs are read exactly if all of them are digits. -/
theorem length_decodeWhile_iff {chars : List Char} {n : Nat} (hlength : chars.length = 2 * n) :
    (decodeWhile chars).length = n ↔ chars.all isDigit = true := by
  induction n generalizing chars with
  | zero =>
    obtain rfl := List.length_eq_zero_iff.mp hlength
    exact iff_of_true rfl rfl
  | succ n ih =>
    obtain _ | ⟨h, _ | ⟨l, chars⟩⟩ := chars
    · simp at hlength
    · simp at hlength
      omega
    · have hrest : chars.length = 2 * n := by
        simp only [List.length_cons] at hlength
        omega
      rw [List.all_cons, List.all_cons, ← Bool.and_assoc, decodeWhile]
      cases isDigit h && isDigit l with
      | false => exact iff_of_false nofun nofun
      | true => rw [if_pos rfl, List.length_cons, Nat.add_right_cancel_iff, ih hrest, Bool.true_and]

end Hex
