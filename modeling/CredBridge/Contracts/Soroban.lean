import CredBridge.Lib.Result

/-! # Soroban

What the contracts use of their host: addresses and hashes, the authorisation of an invocation, storage
that a failed invocation leaves as it was, and 128-bit integers whose overflow traps (the release profile
sets `overflow-checks`). -/

namespace CredBridge.Contracts
open Result

inductive Address where
  | account (id : Nat)
  | contract (id : Nat)
deriving DecidableEq, Repr

abbrev BytesN (n : Nat) := Vector UInt8 n

inductive Trap where
  | contractError (code : Nat)
  | panicked (message : String)
  | unauthorized
  | arithmetic
deriving DecidableEq, Repr

structure Env where
  currentContractAddress : Address
  auth : Address → Bool
  timestamp : Nat

def requireAuth (auth : Address → Bool) (address : Address) : Except Trap Unit :=
  throwIf (auth address = false) .unauthorized

theorem requireAuth_eq_ok {auth : Address → Bool} {a : Address} {u : Unit} :
    requireAuth auth a = .ok u ↔ auth a = true := by
  unfold requireAuth
  rw [throwIf_eq_ok, Bool.not_eq_false]

/-- Who authorises the calls the contract makes: itself, and whoever authorised its own invocation. -/
def Env.callAuth (env : Env) (address : Address) : Bool :=
  decide (address = env.currentContractAddress) || env.auth address

/-! ### 128-bit integers -/

namespace I128

def min : Int := -2 ^ 127
def max : Int := 2 ^ 127 - 1

def checked (n : Int) : Except Trap Int :=
  if min ≤ n ∧ n ≤ max then .ok n else .error .arithmetic

def add (a b : Int) : Except Trap Int := checked (a + b)
def sub (a b : Int) : Except Trap Int := checked (a - b)
def mul (a b : Int) : Except Trap Int := checked (a * b)

/-- Division truncates towards zero. -/
def div (a b : Int) : Except Trap Int :=
  if b = 0 then .error .arithmetic else checked (a.tdiv b)

theorem checked_eq_ok {n m : Int} : checked n = .ok m ↔ (min ≤ n ∧ n ≤ max) ∧ n = m := by
  unfold checked
  split
  · next h => exact ⟨fun hm => ⟨h, Except.ok.inj hm⟩, fun hm => congrArg Except.ok hm.2⟩
  · next h => exact ⟨nofun, fun hm => absurd hm.1 h⟩

theorem checked_of_le {n : Int} (h0 : 0 ≤ n) (h : n ≤ max) : checked n = .ok n :=
  checked_eq_ok.mpr ⟨⟨Int.le_trans (by decide) h0, h⟩, rfl⟩

theorem checked_ne_error {n : Int} {code : Nat} : checked n ≠ .error (.contractError code) := by
  unfold checked
  split <;> nofun

theorem div_ne_error {a b : Int} {code : Nat} : div a b ≠ .error (.contractError code) := by
  unfold div
  split
  · nofun
  · exact checked_ne_error

theorem add_val {a b c : Int} (h : add a b = .ok c) : c = a + b := (checked_eq_ok.mp h).2.symm
theorem sub_val {a b c : Int} (h : sub a b = .ok c) : c = a - b := (checked_eq_ok.mp h).2.symm
theorem mul_val {a b c : Int} (h : mul a b = .ok c) : c = a * b := (checked_eq_ok.mp h).2.symm

theorem div_val {a b c : Int} (h : div a b = .ok c) : c = a.tdiv b := by
  unfold div at h
  split at h
  · cases h
  · exact (checked_eq_ok.mp h).2.symm

end I128
end CredBridge.Contracts
