import Mathlib

/-! # Argument vectors

A function is called with a vector of values, each of which carries its kind, and takes the vector if it has as many values
as the function has parameters, each of its parameter's type. An integer of a kind is one of its range, and a parameter of
`n` bytes takes no other number of bytes. What a function reads from a vector is what was put in it
(`decodeArgs_eq_some`). -/

namespace Abi
variable {A : Type}

abbrev I128 := { n : Int // -2 ^ 127 ≤ n ∧ n < 2 ^ 127 }
abbrev U64 := { n : Nat // n < 2 ^ 64 }
abbrev U32 := { n : Nat // n < 2 ^ 32 }

inductive Val (A : Type) where
  | string (text : String)
  | i128 (n : I128)
  | u64 (n : U64)
  | u32 (n : U32)
  | bytes (bytes : List UInt8)
  | address (a : A)

inductive Ty where
  | string
  | i128
  | u64
  | u32
  | bytesN (n : Nat)
  | address
deriving DecidableEq, Repr

/-- The integers of a type. -/
def Ty.InRange (n : Int) : Ty → Prop
  | .i128 => -2 ^ 127 ≤ n ∧ n < 2 ^ 127
  | .u64 => 0 ≤ n ∧ n < 2 ^ 64
  | .u32 => 0 ≤ n ∧ n < 2 ^ 32
  | .string | .bytesN _ | .address => False

/-- The values of a type. -/
def Ty.Carrier (A : Type) : Ty → Type
  | .string => String
  | .i128 => I128
  | .u64 => U64
  | .u32 => U32
  | .bytesN n => Vector UInt8 n
  | .address => A

def encode : (t : Ty) → t.Carrier A → Val A
  | .string, text => .string text
  | .i128, n => .i128 n
  | .u64, n => .u64 n
  | .u32, n => .u32 n
  | .bytesN _, bytes => .bytes bytes.toList
  | .address, a => .address a

def decode : (t : Ty) → Val A → Option (t.Carrier A)
  | .string, .string text => some text
  | .i128, .i128 n => some n
  | .u64, .u64 n => some n
  | .u32, .u32 n => some n
  | .bytesN n, .bytes bytes => if h : bytes.toArray.size = n then some ⟨bytes.toArray, h⟩ else none
  | .address, .address a => some a
  | _, _ => none

/-- One value for each parameter. -/
def Args (A : Type) : List Ty → Type
  | [] => Unit
  | t :: ts => t.Carrier A × Args A ts

def encodeArgs : (ts : List Ty) → Args A ts → List (Val A)
  | [], _ => []
  | t :: ts, (c, args) => encode t c :: encodeArgs ts args

def decodeArgs : (ts : List Ty) → List (Val A) → Option (Args A ts)
  | [], [] => some ()
  | t :: ts, v :: vs => do
    let c ← decode t v
    let args ← decodeArgs ts vs
    pure (c, args)
  | _, _ => none

section Decode
variable {t : Ty} {ts : List Ty} {v : Val A} {vs : List (Val A)}

theorem decode_encode (t : Ty) (c : t.Carrier A) : decode t (encode t c) = some c := by
  cases t with
  | string | i128 | u64 | u32 | address => rfl
  | bytesN n =>
    obtain ⟨bytes, hsize⟩ := c
    exact dif_pos hsize

theorem decode_eq_some {c : t.Carrier A} : decode t v = some c ↔ v = encode t c := by
  constructor
  · intro h
    cases t with
    | string | i128 | u64 | u32 | address =>
      cases v <;> first | exact congrArg _ (Option.some.inj h) | cases h
    | bytesN n =>
      cases v with
      | bytes bytes =>
        obtain ⟨hsize, hc⟩ := Option.dite_none_right_eq_some.mp h
        obtain rfl := Option.some.inj hc
        rfl
      | string _ | i128 _ | u64 _ | u32 _ | address _ => cases h
  · rintro rfl
    exact decode_encode t c

theorem decodeArgs_encodeArgs (ts : List Ty) (args : Args A ts) : decodeArgs ts (encodeArgs ts args) = some args := by
  induction ts with
  | nil => rfl
  | cons t ts ih =>
    obtain ⟨c, args⟩ := args
    simp only [encodeArgs, decodeArgs, decode_encode, ih]
    rfl

/-- A function takes exactly the vectors that encode its arguments. -/
theorem decodeArgs_eq_some {args : Args A ts} : decodeArgs ts vs = some args ↔ vs = encodeArgs ts args := by
  constructor
  · intro h
    induction ts generalizing vs with
    | nil =>
      cases vs with
      | nil => rfl
      | cons v vs => cases h
    | cons t ts ih =>
      cases vs with
      | nil => cases h
      | cons v vs =>
        obtain ⟨c, hc, h⟩ := Option.bind_eq_some_iff.mp h
        obtain ⟨rest, hrest, h⟩ := Option.bind_eq_some_iff.mp h
        obtain rfl := Option.some.inj h
        rw [decode_eq_some.mp hc, ih hrest]
        rfl
  · rintro rfl
    exact decodeArgs_encodeArgs ts args

theorem length_encodeArgs (ts : List Ty) (args : Args A ts) : (encodeArgs ts args).length = ts.length := by
  induction ts with
  | nil => rfl
  | cons t ts ih => exact congrArg (· + 1) (ih args.2)

/-- A function takes no vector of another length. -/
theorem decodeArgs_eq_none (h : vs.length ≠ ts.length) : decodeArgs ts vs = none := by
  cases hargs : decodeArgs ts vs with
  | none => rfl
  | some args =>
    rw [decodeArgs_eq_some.mp hargs, length_encodeArgs] at h
    exact absurd rfl h

end Decode
end Abi
