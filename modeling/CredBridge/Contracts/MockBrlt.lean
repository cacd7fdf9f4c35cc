import CredBridge.Contracts.Fungible
import CredBridge.Contracts.Token

/-! # The BRLT token

The token contract the repository deploys, for BRLT and for the pool's shares alike, over any token library. Its
balances, transfers and allowances are the library's; what it adds is an admin, which alone can mint. -/

namespace CredBridge.Contracts
open Result

structure MockBrltToken (β : Type) where
  admin : Option Address
  initialized : Bool
  base : β

namespace MockBrltToken
variable {β : Type} (F : Fungible β)

def new : MockBrltToken β := ⟨none, false, F.new⟩

def initializeToken (s : MockBrltToken β) (admin : Address) (name symbol : String) (decimals : Nat) :
    Except Trap (MockBrltToken β) := do
  throwIf (s.initialized = true) (.panicked "already initialized")
  let base ← F.setMetadata s.base decimals name symbol
  pure { admin := some admin, initialized := true, base }

def mint (auth : Address → Bool) (s : MockBrltToken β) (admin receiver : Address) (amount : Int) :
    Except Trap (MockBrltToken β) := do
  requireAuth auth admin
  let expectedAdmin ← orThrow s.admin (.panicked "Admin not initialized")
  throwIf (admin ≠ expectedAdmin) (.panicked "unauthorized")
  let base ← F.mint s.base receiver amount
  pure { s with base }

def burn (auth : Address → Bool) (s : MockBrltToken β) (holder : Address) (amount : Int) :
    Except Trap (MockBrltToken β) := do
  let base ← F.burn auth s.base holder amount
  pure { s with base }

def transfer (auth : Address → Bool) (s : MockBrltToken β) (sender receiver : Address) (amount : Int) :
    Except Trap (MockBrltToken β) := do
  let base ← F.transfer auth s.base sender receiver amount
  pure { s with base }

/-- The library has moved an amount, and the contract's own storage is as it was. -/
structure Moves (s s' : MockBrltToken β) (sender receiver : Option Address) (amount : Int) : Prop where
  admin : s'.admin = s.admin
  initialized : s'.initialized = s.initialized
  base : F.Moves s.base s'.base sender receiver amount

section Calls
variable {F} {auth : Address → Bool} {s s' : MockBrltToken β} {sender receiver admin holder : Address} {amount : Int}

theorem transfer_moves (hF : F.Lawful) (h : s.transfer F auth sender receiver amount = .ok s') :
    s.Moves F s' (some sender) (some receiver) amount := by
  obtain ⟨base, hbase, h⟩ := bind_eq_ok.mp h
  cases pure_eq_ok.mp h
  exact ⟨rfl, rfl, hF.transfer hbase⟩

theorem mint_moves (hF : F.Lawful) (h : s.mint F auth admin receiver amount = .ok s') :
    s.Moves F s' none (some receiver) amount := by
  obtain ⟨-, -, h⟩ := bind_eq_ok.mp h
  obtain ⟨_, -, h⟩ := orThrow_bind_eq_ok.mp h
  obtain ⟨-, h⟩ := throwIf_bind_eq_ok.mp h
  obtain ⟨base, hbase, h⟩ := bind_eq_ok.mp h
  cases pure_eq_ok.mp h
  exact ⟨rfl, rfl, hF.mint hbase⟩

theorem burn_moves (hF : F.Lawful) (h : s.burn F auth holder amount = .ok s') :
    s.Moves F s' (some holder) none amount := by
  obtain ⟨base, hbase, h⟩ := bind_eq_ok.mp h
  cases pure_eq_ok.mp h
  exact ⟨rfl, rfl, hF.burn hbase⟩

theorem mint_admin (h : s.mint F auth admin receiver amount = .ok s') : auth admin = true ∧ s.admin = some admin := by
  obtain ⟨_, hauth, h⟩ := bind_eq_ok.mp h
  obtain ⟨expected, hadmin, h⟩ := orThrow_bind_eq_ok.mp h
  obtain ⟨heq, -⟩ := throwIf_bind_eq_ok.mp h
  exact ⟨requireAuth_eq_ok.mp hauth, (Decidable.not_not.mp heq) ▸ hadmin⟩

end Calls
end MockBrltToken

/-! ### The contracts at their addresses -/

abbrev BrltContracts (β : Type) := Address → MockBrltToken β

def BrltContracts.at {β : Type} (st : BrltContracts β) (token : Address)
    (call : MockBrltToken β → Except Trap (MockBrltToken β)) : Except Trap (BrltContracts β) := do
  let s ← call (st token)
  pure fun t => if t = token then s else st t

def brltContracts {β : Type} (F : Fungible β) : TokenContracts (BrltContracts β) where
  balance st token account := F.balance (st token).base account
  transfer auth st token sender receiver amount := st.at token (·.transfer F auth sender receiver amount)
  mint auth st token admin receiver amount := st.at token (·.mint F auth admin receiver amount)
  burn auth st token holder amount := st.at token (·.burn F auth holder amount)

section Laws
variable {β : Type} {F : Fungible β}

theorem BrltContracts.at_eq_ok {st st' : BrltContracts β} {token : Address}
    {call : MockBrltToken β → Except Trap (MockBrltToken β)} (h : st.at token call = .ok st') :
    ∃ s, call (st token) = .ok s ∧ ∀ t, st' t = if t = token then s else st t := by
  obtain ⟨s, hs, h⟩ := bind_eq_ok.mp h
  exact ⟨s, hs, fun t => by rw [← pure_eq_ok.mp h]⟩

theorem BrltContracts.at_of_ok {st : BrltContracts β} {token : Address}
    {call : MockBrltToken β → Except Trap (MockBrltToken β)} {s : MockBrltToken β} (h : call (st token) = .ok s) :
    ∃ st', st.at token call = .ok st' :=
  ⟨_, bind_eq_ok.mpr ⟨s, h, rfl⟩⟩

theorem BrltContracts.at_balance {st st' : BrltContracts β} {token : Address}
    {call : MockBrltToken β → Except Trap (MockBrltToken β)} {sender receiver : Option Address} {amount : Int}
    (h : st.at token call = .ok st')
    (hcall : ∀ s', call (st token) = .ok s' → (st token).Moves F s' sender receiver amount) :
    0 ≤ amount ∧ ∀ t a, F.balance (st' t).base a = F.balance (st t).base a -
      (if t = token then change sender amount a else 0) + (if t = token then change receiver amount a else 0) := by
  obtain ⟨s, hs, hst⟩ := BrltContracts.at_eq_ok h
  refine ⟨(hcall s hs).base.nonneg, fun t a => ?_⟩
  rw [hst t]
  by_cases ht : t = token
  · simp only [ht]
    exact (hcall s hs).base.balance a
  · simp only [if_neg ht, Int.sub_zero, Int.add_zero]

theorem change_some_eq_moved {token holder t a : Address} {amount : Int} :
    (if t = token then change (some holder) amount a else 0) = moved token holder amount t a := by
  unfold change moved
  by_cases ht : t = token <;> simp [ht]

theorem change_none {token t a : Address} {amount : Int} : (if t = token then change none amount a else 0) = 0 := by
  unfold change
  split <;> rfl

/-- The repository's own token moves exactly the amount asked, which is not below zero, or fails. -/
theorem brltContracts_honest (hF : F.Lawful) : (brltContracts F).Honest where
  transfer {auth st token sender receiver amount st'} h t a := by
    have h : st.at token (·.transfer F auth sender receiver amount) = .ok st' := h
    have hb := (BrltContracts.at_balance h fun _ => MockBrltToken.transfer_moves hF).2 t a
    rwa [change_some_eq_moved, change_some_eq_moved] at hb
  mint {auth st token admin receiver amount st'} h t a := by
    have h : st.at token (·.mint F auth admin receiver amount) = .ok st' := h
    have hb := (BrltContracts.at_balance h fun _ => MockBrltToken.mint_moves hF).2 t a
    rwa [change_none, change_some_eq_moved, Int.sub_zero] at hb
  burn {auth st token holder amount st'} h t a := by
    have h : st.at token (·.burn F auth holder amount) = .ok st' := h
    have hb := (BrltContracts.at_balance h fun _ => MockBrltToken.burn_moves hF).2 t a
    rwa [change_none, change_some_eq_moved, Int.add_zero] at hb
  transfer_nonneg {auth st token sender receiver amount st'} h := by
    have h : st.at token (·.transfer F auth sender receiver amount) = .ok st' := h
    exact (BrltContracts.at_balance h fun _ => MockBrltToken.transfer_moves hF).1
  mint_nonneg {auth st token admin receiver amount st'} h := by
    have h : st.at token (·.mint F auth admin receiver amount) = .ok st' := h
    exact (BrltContracts.at_balance h fun _ => MockBrltToken.mint_moves hF).1

theorem brltContracts_liquid (hF : F.Spendable) : (brltContracts F).Liquid where
  transfer {auth st token sender amount} hauth hamount hbalance receiver := by
    obtain ⟨base, hbase⟩ := hF.transfer hauth hamount hbalance receiver
    show ∃ st', st.at token (·.transfer F auth sender receiver amount) = .ok st'
    exact BrltContracts.at_of_ok (bind_eq_ok.mpr ⟨base, hbase, rfl⟩)
  burn {auth st token holder amount} hauth hamount hbalance := by
    obtain ⟨base, hbase⟩ := hF.burn hauth hamount hbalance
    show ∃ st', st.at token (·.burn F auth holder amount) = .ok st'
    exact BrltContracts.at_of_ok (bind_eq_ok.mpr ⟨base, hbase, rfl⟩)

end Laws

/-! ### Over the small library -/

abbrev MockBrltTokens := BrltContracts HeldTokens

def mockBrlt : TokenContracts MockBrltTokens := brltContracts heldTokens

theorem mockBrlt_honest : mockBrlt.Honest := brltContracts_honest heldTokens_lawful

theorem mockBrlt_exact : mockBrlt.Exact := mockBrlt_honest.toExact

theorem mockBrlt_liquid : mockBrlt.Liquid := brltContracts_liquid heldTokens_spendable

end CredBridge.Contracts
