import CredBridge.Contracts.Soroban

/-! # Non-fungible tokens

The token library that the NF-e contract is built on. It is a parameter here: who owns each token, and what the
library's functions make of it. `NonFungible.Lawful` is what its documentation promises of them: the ones that move
a token ask for its owner, or for somebody whom the owner approved, and move that token only. -/

namespace CredBridge.Contracts
open Result

/-- The library, on one contract's storage. `auth` is who authorises the call. -/
structure NonFungible (ν : Type) where
  ownerOf : ν → (tokenId : Nat) → Option Address
  sequentialMint : ν → (receiver : Address) → Except Trap (ν × Nat)
  transfer : (auth : Address → Bool) → ν → (sender receiver : Address) → (tokenId : Nat) → Except Trap ν
  transferFrom : (auth : Address → Bool) → ν → (spender sender receiver : Address) → (tokenId : Nat) → Except Trap ν
  approve : (auth : Address → Bool) → ν → (approver approved : Address) → (tokenId liveUntilLedger : Nat) → Except Trap ν
  approveForAll : (auth : Address → Bool) → ν → (owner operator : Address) → (liveUntilLedger : Nat) → Except Trap ν
  burn : (auth : Address → Bool) → ν → (holder : Address) → (tokenId : Nat) → Except Trap ν
  burnFrom : (auth : Address → Bool) → ν → (spender holder : Address) → (tokenId : Nat) → Except Trap ν

namespace NonFungible
variable {ν : Type}

/-- A token changed hands: it was the sender's and is the receiver's, or nobody's, and the others are whose they were. -/
def Moves (N : NonFungible ν) (st st' : ν) (tokenId : Nat) (sender receiver : Option Address) : Prop :=
  N.ownerOf st tokenId = sender ∧ ∀ j, N.ownerOf st' j = if j = tokenId then receiver else N.ownerOf st j

/-- A move makes no token. -/
theorem Moves.existing {N : NonFungible ν} {st st' : ν} {tokenId j : Nat} {sender a : Address} {receiver : Option Address}
    (h : N.Moves st st' tokenId (some sender) receiver) (ha : N.ownerOf st' j = some a) : ∃ b, N.ownerOf st j = some b := by
  by_cases hj : j = tokenId
  · exact ⟨sender, hj ▸ h.1⟩
  · exact ⟨a, by rw [← ha, h.2 j, if_neg hj]⟩

/-- A move to the holder itself is none. -/
theorem Moves.same {N : NonFungible ν} {st st' : ν} {tokenId : Nat} {sender receiver : Option Address}
    (h : N.Moves st st' tokenId sender receiver) (heq : receiver = sender) (j : Nat) : N.ownerOf st' j = N.ownerOf st j := by
  rw [h.2 j]
  split
  · next hj => rw [hj, h.1, heq]
  · rfl

structure Lawful (N : NonFungible ν) : Prop where
  sequentialMint : ∀ {st receiver st' tokenId}, N.sequentialMint st receiver = .ok (st', tokenId) →
    N.Moves st st' tokenId none (some receiver)
  transfer : ∀ {auth st sender receiver tokenId st'}, N.transfer auth st sender receiver tokenId = .ok st' →
    auth sender = true ∧ N.Moves st st' tokenId (some sender) (some receiver)
  transferFrom : ∀ {auth st spender sender receiver tokenId st'},
    N.transferFrom auth st spender sender receiver tokenId = .ok st' →
      auth spender = true ∧ N.Moves st st' tokenId (some sender) (some receiver)
  approve : ∀ {auth st approver approved tokenId liveUntilLedger st'},
    N.approve auth st approver approved tokenId liveUntilLedger = .ok st' →
      auth approver = true ∧ ∀ j, N.ownerOf st' j = N.ownerOf st j
  approveForAll : ∀ {auth st owner operator liveUntilLedger st'},
    N.approveForAll auth st owner operator liveUntilLedger = .ok st' →
      auth owner = true ∧ ∀ j, N.ownerOf st' j = N.ownerOf st j
  burn : ∀ {auth st holder tokenId st'}, N.burn auth st holder tokenId = .ok st' →
    auth holder = true ∧ N.Moves st st' tokenId (some holder) none
  burnFrom : ∀ {auth st spender holder tokenId st'}, N.burnFrom auth st spender holder tokenId = .ok st' →
    auth spender = true ∧ N.Moves st st' tokenId (some holder) none

/-- A holder that authorises it can burn its token. -/
structure Burnable (N : NonFungible ν) : Prop where
  burn : ∀ {auth st holder tokenId}, auth holder = true → N.ownerOf st tokenId = some holder →
    ∃ st', N.burn auth st holder tokenId = .ok st'

/-- A call of the library that succeeds takes its storage from `st` to `st'`. -/
inductive Changes (N : NonFungible ν) (st st' : ν) : Prop
  | sequentialMint {receiver : Address} {tokenId : Nat} (h : N.sequentialMint st receiver = .ok (st', tokenId))
  | transfer {auth : Address → Bool} {sender receiver : Address} {tokenId : Nat}
      (h : N.transfer auth st sender receiver tokenId = .ok st')
  | transferFrom {auth : Address → Bool} {spender sender receiver : Address} {tokenId : Nat}
      (h : N.transferFrom auth st spender sender receiver tokenId = .ok st')
  | approve {auth : Address → Bool} {approver approved : Address} {tokenId liveUntilLedger : Nat}
      (h : N.approve auth st approver approved tokenId liveUntilLedger = .ok st')
  | approveForAll {auth : Address → Bool} {owner operator : Address} {liveUntilLedger : Nat}
      (h : N.approveForAll auth st owner operator liveUntilLedger = .ok st')
  | burn {auth : Address → Bool} {holder : Address} {tokenId : Nat} (h : N.burn auth st holder tokenId = .ok st')
  | burnFrom {auth : Address → Bool} {spender holder : Address} {tokenId : Nat}
      (h : N.burnFrom auth st spender holder tokenId = .ok st')

/-- A mint gives an id that no mint gave before: the ids that were given stay given. -/
structure Sequential (N : NonFungible ν) (issued : ν → Nat → Prop) : Prop where
  fresh : ∀ {st receiver st' tokenId}, N.sequentialMint st receiver = .ok (st', tokenId) →
    ¬issued st tokenId ∧ issued st' tokenId
  stays : ∀ {st st'}, N.Changes st st' → ∀ tokenId, issued st tokenId → issued st' tokenId

end NonFungible

/-! ### A small library -/

/-- Tokens with their owners, and who may move them besides. Approvals do not expire. -/
structure OwnedTokens where
  nextId : Nat
  owner : Nat → Option Address
  approved : Nat → Option Address
  operators : List (Address × Address)

namespace OwnedTokens

def empty : OwnedTokens := ⟨0, fun _ => none, fun _ => none, []⟩

def update (st : OwnedTokens) (sender receiver : Option Address) (tokenId : Nat) : Except Trap OwnedTokens := do
  throwIf (st.owner tokenId ≠ sender) (.panicked "incorrect owner")
  pure { st with
    owner := fun j => if j = tokenId then receiver else st.owner j
    approved := fun j => if j = tokenId then none else st.approved j }

def checkSpender (st : OwnedTokens) (spender holder : Address) (tokenId : Nat) : Except Trap Unit :=
  throwIf (spender ≠ holder ∧ st.approved tokenId ≠ some spender ∧ (holder, spender) ∉ st.operators)
    (.panicked "insufficient approval")

def sequentialMint (st : OwnedTokens) (receiver : Address) : Except Trap (OwnedTokens × Nat) := do
  let st' ← ({ st with nextId := st.nextId + 1 }).update none (some receiver) st.nextId
  pure (st', st.nextId)

def transfer (auth : Address → Bool) (st : OwnedTokens) (sender receiver : Address) (tokenId : Nat) :
    Except Trap OwnedTokens := do
  requireAuth auth sender
  st.update (some sender) (some receiver) tokenId

def transferFrom (auth : Address → Bool) (st : OwnedTokens) (spender sender receiver : Address) (tokenId : Nat) :
    Except Trap OwnedTokens := do
  requireAuth auth spender
  st.checkSpender spender sender tokenId
  st.update (some sender) (some receiver) tokenId

def approve (auth : Address → Bool) (st : OwnedTokens) (approver approved : Address) (tokenId _liveUntilLedger : Nat) :
    Except Trap OwnedTokens := do
  requireAuth auth approver
  st.checkSpender approver ((st.owner tokenId).getD approver) tokenId
  pure { st with approved := fun j => if j = tokenId then some approved else st.approved j }

def approveForAll (auth : Address → Bool) (st : OwnedTokens) (owner operator : Address) (_liveUntilLedger : Nat) :
    Except Trap OwnedTokens := do
  requireAuth auth owner
  pure { st with operators := st.operators ++ [(owner, operator)] }

def burn (auth : Address → Bool) (st : OwnedTokens) (holder : Address) (tokenId : Nat) : Except Trap OwnedTokens := do
  requireAuth auth holder
  st.update (some holder) none tokenId

def burnFrom (auth : Address → Bool) (st : OwnedTokens) (spender holder : Address) (tokenId : Nat) :
    Except Trap OwnedTokens := do
  requireAuth auth spender
  st.checkSpender spender holder tokenId
  st.update (some holder) none tokenId

theorem update_nextId {st st' : OwnedTokens} {sender receiver : Option Address} {tokenId : Nat}
    (h : st.update sender receiver tokenId = .ok st') : st'.nextId = st.nextId := by
  obtain ⟨-, h⟩ := throwIf_bind_eq_ok.mp h
  rw [← pure_eq_ok.mp h]

theorem sequentialMint_nextId {st st' : OwnedTokens} {receiver : Address} {tokenId : Nat}
    (h : st.sequentialMint receiver = .ok (st', tokenId)) : tokenId = st.nextId ∧ st'.nextId = st.nextId + 1 := by
  obtain ⟨st₁, hupdate, h⟩ := bind_eq_ok.mp h
  cases pure_eq_ok.mp h
  exact ⟨rfl, update_nextId hupdate⟩

theorem update_moves {st st' : OwnedTokens} {sender receiver : Option Address} {tokenId : Nat}
    (h : st.update sender receiver tokenId = .ok st') :
    st.owner tokenId = sender ∧ ∀ j, st'.owner j = if j = tokenId then receiver else st.owner j := by
  obtain ⟨howner, h⟩ := throwIf_bind_eq_ok.mp h
  rw [← pure_eq_ok.mp h]
  exact ⟨Decidable.not_not.mp howner, fun _ => rfl⟩

end OwnedTokens

def ownedTokens : NonFungible OwnedTokens where
  ownerOf := OwnedTokens.owner
  sequentialMint := OwnedTokens.sequentialMint
  transfer := OwnedTokens.transfer
  transferFrom := OwnedTokens.transferFrom
  approve := OwnedTokens.approve
  approveForAll := OwnedTokens.approveForAll
  burn := OwnedTokens.burn
  burnFrom := OwnedTokens.burnFrom

theorem ownedTokens_lawful : ownedTokens.Lawful where
  sequentialMint {st receiver st' tokenId} h := by
    obtain ⟨st₁, hupdate, h⟩ := bind_eq_ok.mp h
    cases pure_eq_ok.mp h
    have hmoves := OwnedTokens.update_moves hupdate
    exact hmoves
  transfer h := by
    obtain ⟨_, hauth, h⟩ := bind_eq_ok.mp h
    exact ⟨requireAuth_eq_ok.mp hauth, OwnedTokens.update_moves h⟩
  transferFrom h := by
    obtain ⟨_, hauth, h⟩ := bind_eq_ok.mp h
    obtain ⟨_, -, h⟩ := bind_eq_ok.mp h
    exact ⟨requireAuth_eq_ok.mp hauth, OwnedTokens.update_moves h⟩
  approve h := by
    obtain ⟨_, hauth, h⟩ := bind_eq_ok.mp h
    obtain ⟨_, -, h⟩ := bind_eq_ok.mp h
    cases pure_eq_ok.mp h
    exact ⟨requireAuth_eq_ok.mp hauth, fun _ => rfl⟩
  approveForAll h := by
    obtain ⟨_, hauth, h⟩ := bind_eq_ok.mp h
    cases pure_eq_ok.mp h
    exact ⟨requireAuth_eq_ok.mp hauth, fun _ => rfl⟩
  burn h := by
    obtain ⟨_, hauth, h⟩ := bind_eq_ok.mp h
    exact ⟨requireAuth_eq_ok.mp hauth, OwnedTokens.update_moves h⟩
  burnFrom h := by
    obtain ⟨_, hauth, h⟩ := bind_eq_ok.mp h
    obtain ⟨_, -, h⟩ := bind_eq_ok.mp h
    exact ⟨requireAuth_eq_ok.mp hauth, OwnedTokens.update_moves h⟩

theorem ownedTokens_burnable : ownedTokens.Burnable where
  burn hauth howner :=
    ⟨_, bind_eq_ok.mpr ⟨(), requireAuth_eq_ok.mpr hauth, throwIf_bind_eq_ok.mpr ⟨not_not_intro howner, rfl⟩⟩⟩

theorem ownedTokens_nextId {st st' : OwnedTokens} (h : ownedTokens.Changes st st') : st.nextId ≤ st'.nextId := by
  cases h with
  | sequentialMint h => exact (OwnedTokens.sequentialMint_nextId h).2 ▸ Nat.le_succ _
  | transfer h =>
    obtain ⟨_, -, h⟩ := bind_eq_ok.mp h
    exact Nat.le_of_eq (OwnedTokens.update_nextId h).symm
  | transferFrom h =>
    obtain ⟨_, -, h⟩ := bind_eq_ok.mp h
    obtain ⟨_, -, h⟩ := bind_eq_ok.mp h
    exact Nat.le_of_eq (OwnedTokens.update_nextId h).symm
  | approve h =>
    obtain ⟨_, -, h⟩ := bind_eq_ok.mp h
    obtain ⟨_, -, h⟩ := bind_eq_ok.mp h
    cases pure_eq_ok.mp h
    exact Nat.le_refl _
  | approveForAll h =>
    obtain ⟨_, -, h⟩ := bind_eq_ok.mp h
    cases pure_eq_ok.mp h
    exact Nat.le_refl _
  | burn h =>
    obtain ⟨_, -, h⟩ := bind_eq_ok.mp h
    exact Nat.le_of_eq (OwnedTokens.update_nextId h).symm
  | burnFrom h =>
    obtain ⟨_, -, h⟩ := bind_eq_ok.mp h
    obtain ⟨_, -, h⟩ := bind_eq_ok.mp h
    exact Nat.le_of_eq (OwnedTokens.update_nextId h).symm

theorem ownedTokens_sequential : ownedTokens.Sequential fun st tokenId => tokenId < st.nextId where
  fresh h := by
    obtain ⟨rfl, hnext⟩ := OwnedTokens.sequentialMint_nextId h
    exact ⟨Nat.lt_irrefl _, hnext ▸ Nat.lt_succ_self _⟩
  stays h _ hlt := Nat.lt_of_lt_of_le hlt (ownedTokens_nextId h)

end CredBridge.Contracts
