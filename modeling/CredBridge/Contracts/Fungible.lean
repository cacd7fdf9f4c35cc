import CredBridge.Contracts.Soroban
import CredBridge.Lib.Tally

/-! # Fungible tokens

The token library that the BRLT contract is built on, its `Base` above all. It is a parameter here: what each holder
has, and what the library's functions make of it. `Fungible.Lawful` is what its documentation promises of them: a
call that succeeds moves an amount that is not below zero, and that its sender has, and nothing else. -/

namespace CredBridge.Contracts
open Result

/-- What of the ledger's state an allowance depends on. -/
structure LedgerInfo where
  sequence : Nat
  maxLiveUntilLedger : Nat

/-- The library, on one contract's storage. `auth` is who authorises the call. -/
structure Fungible (β : Type) where
  new : β
  balances : β → Tally Address
  setMetadata : β → (decimals : Nat) → (name symbol : String) → Except Trap β
  mint : β → (receiver : Address) → (amount : Int) → Except Trap β
  burn : (auth : Address → Bool) → β → (holder : Address) → (amount : Int) → Except Trap β
  transfer : (auth : Address → Bool) → β → (sender receiver : Address) → (amount : Int) → Except Trap β
  transferFrom : (auth : Address → Bool) → LedgerInfo → β → (spender sender receiver : Address) → (amount : Int) →
    Except Trap β
  approve : (auth : Address → Bool) → LedgerInfo → β → (owner spender : Address) → (amount : Int) →
    (liveUntilLedger : Nat) → Except Trap β

/-- What a move of an amount from or to `holder` is for the account `a`. -/
def change (holder : Option Address) (amount : Int) (a : Address) : Int :=
  match holder with
  | some b => if a = b then amount else 0
  | none => 0

namespace Fungible
variable {β : Type}

def balance (F : Fungible β) (b : β) (account : Address) : Int := (F.balances b).get account

/-- An amount went from the sender, which has it, to the receiver; one of them may be nobody. -/
structure Moves (F : Fungible β) (b b' : β) (sender receiver : Option Address) (amount : Int) : Prop where
  nonneg : 0 ≤ amount
  covered : ∀ a ∈ sender, amount ≤ F.balance b a
  balance : ∀ a, F.balance b' a = F.balance b a - change sender amount a + change receiver amount a

structure Lawful (F : Fungible β) : Prop where
  new : ∀ a, F.balance F.new a = 0
  setMetadata : ∀ {b decimals name symbol b'}, F.setMetadata b decimals name symbol = .ok b' →
    ∀ a, F.balance b' a = F.balance b a
  mint : ∀ {b receiver amount b'}, F.mint b receiver amount = .ok b' → F.Moves b b' none (some receiver) amount
  burn : ∀ {auth b holder amount b'}, F.burn auth b holder amount = .ok b' → F.Moves b b' (some holder) none amount
  transfer : ∀ {auth b sender receiver amount b'}, F.transfer auth b sender receiver amount = .ok b' →
    F.Moves b b' (some sender) (some receiver) amount
  transferFrom : ∀ {auth info b spender sender receiver amount b'},
    F.transferFrom auth info b spender sender receiver amount = .ok b' → F.Moves b b' (some sender) (some receiver) amount
  approve : ∀ {auth info b owner spender amount liveUntilLedger b'},
    F.approve auth info b owner spender amount liveUntilLedger = .ok b' → ∀ a, F.balance b' a = F.balance b a

/-- A holder that authorises it can move what it has. -/
structure Spendable (F : Fungible β) : Prop where
  transfer : ∀ {auth b sender amount}, auth sender = true → 0 ≤ amount → amount ≤ F.balance b sender →
    ∀ receiver, ∃ b', F.transfer auth b sender receiver amount = .ok b'
  burn : ∀ {auth b holder amount}, auth holder = true → 0 ≤ amount → amount ≤ F.balance b holder →
    ∃ b', F.burn auth b holder amount = .ok b'

/-! ### What a move does to the sum of the balances -/

def movedOf (holder : Option Address) (amount : Int) : Int := if holder.isSome then amount else 0

theorem change_nonneg {holder : Option Address} {amount : Int} {a : Address} (h : 0 ≤ amount) :
    0 ≤ change holder amount a := by
  unfold change
  split
  · split
    · exact h
    · exact Int.le_refl 0
  · exact Int.le_refl 0

theorem change_le {holder : Option Address} {amount : Int} {a : Address} {has : Address → Int}
    (h : ∀ b ∈ holder, amount ≤ has b) (ha : 0 ≤ has a) : change holder amount a ≤ has a := by
  cases holder with
  | none => exact ha
  | some b =>
    show (if a = b then amount else 0) ≤ has a
    split
    · next hab => exact hab ▸ h b rfl
    · exact ha

theorem Moves.nonneg_balances {F : Fungible β} {b b' : β} {sender receiver : Option Address} {amount : Int}
    (h : F.Moves b b' sender receiver amount) (hb : (F.balances b).Nonneg) : (F.balances b').Nonneg := by
  intro a
  have hbalance : (F.balances b').get a = _ := h.balance a
  have ha : 0 ≤ F.balance b a := hb a
  have hamount := h.nonneg
  have hreceived : 0 ≤ change receiver amount a := change_nonneg h.nonneg
  have hsent : change sender amount a ≤ F.balance b a := change_le h.covered ha
  omega

def addTo (t : Tally Address) (holder : Option Address) (amount : Int) : Tally Address :=
  match holder with
  | some a => t.add a amount
  | none => t

theorem get_addTo {t : Tally Address} {holder : Option Address} {amount : Int} (a : Address) :
    (addTo t holder amount).get a = t.get a + change holder amount a := by
  cases holder with
  | none => exact (Int.add_zero _).symm
  | some b => exact Tally.get_add t b a amount

theorem total_addTo {t : Tally Address} {holder : Option Address} {amount : Int} :
    (addTo t holder amount).total = t.total + movedOf holder amount := by
  cases holder with
  | none => exact (Int.add_zero _).symm
  | some b => exact Tally.total_add t b amount

theorem change_neg {holder : Option Address} {amount : Int} {a : Address} :
    change holder (-amount) a = -change holder amount a := by
  unfold change
  split
  · split
    · rfl
    · exact Int.neg_zero.symm
  · exact Int.neg_zero.symm

/-- The sum changes by what came in from nobody, less what went out to nobody. -/
theorem Moves.total {F : Fungible β} {b b' : β} {sender receiver : Option Address} {amount : Int}
    (h : F.Moves b b' sender receiver amount) :
    (F.balances b').total = (F.balances b).total + (movedOf receiver amount - movedOf sender amount) := by
  have hget : ∀ a, (F.balances b').get a = (addTo (addTo (F.balances b) sender (-amount)) receiver amount).get a := by
    intro a
    rw [get_addTo, get_addTo, change_neg]
    exact h.balance a
  rw [Tally.total_congr hget, total_addTo, total_addTo]
  unfold movedOf
  split <;> split <;> omega

end Fungible

/-! ### A small library -/

structure AllowanceData where
  amount : Int
  liveUntilLedger : Nat

/-- Balances with what is in circulation, and allowances by owner and spender. -/
structure HeldTokens where
  totalSupply : Int
  balances : Tally Address
  allowances : Address → Address → AllowanceData

namespace HeldTokens

def empty : HeldTokens := ⟨0, .empty, fun _ _ => ⟨0, 0⟩⟩

def debit (s : HeldTokens) (sender : Option Address) (amount : Int) : Except Trap HeldTokens :=
  match sender with
  | some a => do
    throwIf (s.balances.get a < amount) (.contractError 100)
    pure { s with balances := s.balances.add a (-amount) }
  | none => do
    let totalSupply ← I128.add s.totalSupply amount
    pure { s with totalSupply }

def credit (s : HeldTokens) (receiver : Option Address) (amount : Int) : HeldTokens :=
  match receiver with
  | some a => { s with balances := s.balances.add a amount }
  | none => { s with totalSupply := s.totalSupply - amount }

/-- Every move goes through it. -/
def update (s : HeldTokens) (sender receiver : Option Address) (amount : Int) : Except Trap HeldTokens := do
  throwIf (amount < 0) (.contractError 103)
  let s ← s.debit sender amount
  pure (s.credit receiver amount)

/-- An allowance that has expired counts for nothing. -/
def allowance (info : LedgerInfo) (s : HeldTokens) (owner spender : Address) : Int :=
  let data := s.allowances owner spender
  if data.amount > 0 ∧ data.liveUntilLedger < info.sequence then 0 else data.amount

def setAllowance (info : LedgerInfo) (s : HeldTokens) (owner spender : Address) (amount : Int) (liveUntilLedger : Nat) :
    Except Trap HeldTokens := do
  throwIf (amount < 0) (.contractError 103)
  throwIf (liveUntilLedger > info.maxLiveUntilLedger ∨ (amount > 0 ∧ liveUntilLedger < info.sequence))
    (.contractError 102)
  pure { s with allowances := fun o p => if o = owner ∧ p = spender then ⟨amount, liveUntilLedger⟩ else s.allowances o p }

def spendAllowance (info : LedgerInfo) (s : HeldTokens) (owner spender : Address) (amount : Int) :
    Except Trap HeldTokens := do
  throwIf (amount < 0) (.contractError 103)
  let allowance := s.allowance info owner spender
  throwIf (allowance < amount) (.contractError 101)
  if amount > 0 then
    s.setAllowance info owner spender (allowance - amount) (s.allowances owner spender).liveUntilLedger
  else
    pure s

def burn (auth : Address → Bool) (s : HeldTokens) (holder : Address) (amount : Int) : Except Trap HeldTokens := do
  requireAuth auth holder
  s.update (some holder) none amount

def transfer (auth : Address → Bool) (s : HeldTokens) (sender receiver : Address) (amount : Int) :
    Except Trap HeldTokens := do
  requireAuth auth sender
  s.update (some sender) (some receiver) amount

def transferFrom (auth : Address → Bool) (info : LedgerInfo) (s : HeldTokens) (spender sender receiver : Address)
    (amount : Int) : Except Trap HeldTokens := do
  requireAuth auth spender
  let s ← s.spendAllowance info sender spender amount
  s.update (some sender) (some receiver) amount

def approve (auth : Address → Bool) (info : LedgerInfo) (s : HeldTokens) (owner spender : Address) (amount : Int)
    (liveUntilLedger : Nat) : Except Trap HeldTokens := do
  requireAuth auth owner
  s.setAllowance info owner spender amount liveUntilLedger

end HeldTokens

def heldTokens : Fungible HeldTokens where
  new := .empty
  balances := HeldTokens.balances
  setMetadata s _ _ _ := .ok s
  mint s receiver amount := s.update none (some receiver) amount
  burn := HeldTokens.burn
  transfer := HeldTokens.transfer
  transferFrom := HeldTokens.transferFrom
  approve := HeldTokens.approve

namespace HeldTokens
variable {s s' : HeldTokens} {sender receiver : Option Address} {amount : Int}

theorem debit_balance (h : s.debit sender amount = .ok s') :
    (∀ a ∈ sender, amount ≤ s.balances.get a) ∧ ∀ a, s'.balances.get a = s.balances.get a - change sender amount a := by
  unfold debit at h
  unfold change
  cases sender with
  | some b =>
    obtain ⟨hle, h⟩ := throwIf_bind_eq_ok.mp h
    cases pure_eq_ok.mp h
    refine ⟨fun a ha => Option.some.inj ha ▸ Int.not_lt.mp hle, fun a => ?_⟩
    by_cases hab : a = b
    · simp [hab, Int.sub_eq_add_neg]
    · simp [hab]
  | none =>
    obtain ⟨_, -, h⟩ := bind_eq_ok.mp h
    cases pure_eq_ok.mp h
    exact ⟨fun a ha => (by cases ha), fun a => (Int.sub_zero _).symm⟩

theorem credit_balance (a : Address) :
    (s.credit receiver amount).balances.get a = s.balances.get a + change receiver amount a := by
  unfold credit change
  cases receiver with
  | some b => simp
  | none => simp

theorem update_moves (h : s.update sender receiver amount = .ok s') : heldTokens.Moves s s' sender receiver amount := by
  obtain ⟨hamount, h⟩ := throwIf_bind_eq_ok.mp h
  obtain ⟨s₁, hdebit, h⟩ := bind_eq_ok.mp h
  cases pure_eq_ok.mp h
  obtain ⟨hcovered, hbalance⟩ := debit_balance hdebit
  refine ⟨Int.not_lt.mp hamount, hcovered, fun a => ?_⟩
  show (s₁.credit receiver amount).balances.get a = _
  rw [credit_balance, hbalance]
  rfl

theorem update_of_balance {holder : Address} (hamount : 0 ≤ amount) (hbalance : amount ≤ s.balances.get holder)
    (receiver : Option Address) : ∃ s', s.update (some holder) receiver amount = .ok s' :=
  ⟨_, throwIf_bind_eq_ok.mpr ⟨Int.not_lt.mpr hamount, bind_eq_ok.mpr
    ⟨_, throwIf_bind_eq_ok.mpr ⟨Int.not_lt.mpr hbalance, rfl⟩, rfl⟩⟩⟩

theorem setAllowance_balances {info : LedgerInfo} {owner spender : Address} {liveUntilLedger : Nat}
    (h : s.setAllowance info owner spender amount liveUntilLedger = .ok s') : s'.balances = s.balances := by
  obtain ⟨-, h⟩ := throwIf_bind_eq_ok.mp h
  obtain ⟨-, h⟩ := throwIf_bind_eq_ok.mp h
  cases pure_eq_ok.mp h
  rfl

theorem spendAllowance_balances {info : LedgerInfo} {owner spender : Address}
    (h : s.spendAllowance info owner spender amount = .ok s') : s'.balances = s.balances := by
  obtain ⟨-, h⟩ := throwIf_bind_eq_ok.mp h
  obtain ⟨-, h⟩ := throwIf_bind_eq_ok.mp h
  split at h
  · exact setAllowance_balances h
  · cases pure_eq_ok.mp h
    rfl

/-- A move of a storage with the same balances is one of this storage. -/
theorem moves_congr {s₁ : HeldTokens} (hbalances : s₁.balances = s.balances)
    (h : heldTokens.Moves s₁ s' sender receiver amount) : heldTokens.Moves s s' sender receiver amount := by
  have hget : ∀ a, heldTokens.balance s₁ a = heldTokens.balance s a := fun a => congrArg (Tally.get · a) hbalances
  exact ⟨h.nonneg, fun a ha => hget a ▸ h.covered a ha, fun a => hget a ▸ h.balance a⟩

end HeldTokens

theorem heldTokens_lawful : heldTokens.Lawful where
  new _ := rfl
  setMetadata h _ := by
    cases h
    rfl
  mint h := HeldTokens.update_moves h
  burn h := by
    obtain ⟨-, -, h⟩ := bind_eq_ok.mp h
    exact HeldTokens.update_moves h
  transfer h := by
    obtain ⟨-, -, h⟩ := bind_eq_ok.mp h
    exact HeldTokens.update_moves h
  transferFrom h := by
    obtain ⟨-, -, h⟩ := bind_eq_ok.mp h
    obtain ⟨_, hspent, h⟩ := bind_eq_ok.mp h
    exact HeldTokens.moves_congr (HeldTokens.spendAllowance_balances hspent) (HeldTokens.update_moves h)
  approve h a := by
    obtain ⟨-, -, h⟩ := bind_eq_ok.mp h
    exact congrArg (Tally.get · a) (HeldTokens.setAllowance_balances h)

theorem heldTokens_spendable : heldTokens.Spendable where
  transfer hauth hamount hbalance receiver := by
    obtain ⟨s', hs⟩ := HeldTokens.update_of_balance hamount hbalance (some receiver)
    exact ⟨s', bind_eq_ok.mpr ⟨(), requireAuth_eq_ok.mpr hauth, hs⟩⟩
  burn hauth hamount hbalance := by
    obtain ⟨s', hs⟩ := HeldTokens.update_of_balance hamount hbalance none
    exact ⟨s', bind_eq_ok.mpr ⟨(), requireAuth_eq_ok.mpr hauth, hs⟩⟩

end CredBridge.Contracts
