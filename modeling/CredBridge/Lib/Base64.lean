import Mathlib

/-! # Base64

Three bytes written with four digits each, and the last one or two padded. -/

namespace Base64

def digit (n : Nat) : Char := "ABCDEFGHIJKLMNOPQRSTUVWXYZabcdefghijklmnopqrstuvwxyz0123456789+/".toList.getD n 'A'

def encode : List UInt8 → List Char
  | a :: b :: c :: rest =>
    [digit (a.toNat / 4), digit (a.toNat % 4 * 16 + b.toNat / 16), digit (b.toNat % 16 * 4 + c.toNat / 64),
      digit (c.toNat % 64)] ++ encode rest
  | [a, b] =>
    [digit (a.toNat / 4), digit (a.toNat % 4 * 16 + b.toNat / 16), digit (b.toNat % 16 * 4), '=']
  | [a] => [digit (a.toNat / 4), digit (a.toNat % 4 * 16), '=', '=']
  | [] => []

theorem digit_ascii (n : Nat) : (digit n).toNat < 128 := by
  by_cases hn : n < 64
  · interval_cases n <;> decide
  · have hlength : "ABCDEFGHIJKLMNOPQRSTUVWXYZabcdefghijklmnopqrstuvwxyz0123456789+/".toList.length = 64 := rfl
    rw [digit, List.getD_eq_getElem?_getD, List.getElem?_eq_none (by omega)]
    decide

theorem encode_ascii (bytes : List UInt8) : ∀ c ∈ encode bytes, c.toNat < 128 := by
  fun_induction encode bytes with
  | case1 a b c rest ih => simpa [digit_ascii] using ih
  | case2 a b => simp [digit_ascii]
  | case3 a => simp [digit_ascii]
  | case4 => simp

theorem encode_ne_nil {bytes : List UInt8} (h : bytes ≠ []) : encode bytes ≠ [] := by
  fun_cases encode bytes with
  | case1 a b c rest => simp
  | case2 a b => simp
  | case3 a => simp
  | case4 => exact absurd rfl h

example : String.ofList (encode [0x66, 0x6F, 0x6F, 0x62]) = "Zm9vYg==" := by decide

end Base64
