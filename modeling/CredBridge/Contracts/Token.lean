import CredBridge.Contracts.Soroban

/-! # Token contracts

The pool reaches the BRLT token and its share token through two client interfaces, whose implementations
are other contracts. They are a parameter here: the balances of every token contract, and what its calls
make of them. `TokenContracts.Exact` is what the documentation of a fungible token promises of these
calls: each moves exactly the amount asked, or fails. -/

namespace CredBridge.Contracts

/-- The token contracts on the ledger, by address. `auth` is who authorises the call. -/
structure TokenContracts (τ : Type) where
  balance : τ → (token account : Address) → Int
  transfer : (auth : Address → Bool) → τ → (token sender receiver : Address) → (amount : Int) → Except Trap τ
  mint : (auth : Address → Bool) → τ → (token admin receiver : Address) → (amount : Int) → Except Trap τ
  burn : (auth : Address → Bool) → τ → (token holder : Address) → (amount : Int) → Except Trap τ

def moved (token account : Address) (amount : Int) (t a : Address) : Int :=
  if t = token ∧ a = account then amount else 0

@[simp] theorem moved_self (t a : Address) (amount : Int) : moved t a amount t a = amount := if_pos ⟨rfl, rfl⟩

theorem moved_of_ne {t a b : Address} {amount : Int} (h : a ≠ b) {t' : Address} : moved t b amount t' a = 0 :=
  if_neg fun he => h he.2

namespace TokenContracts
variable {τ : Type}

/-- Every call that succeeds moves exactly the amount asked, and nothing else. -/
structure Exact (T : TokenContracts τ) : Prop where
  transfer : ∀ {auth st token sender receiver amount st'},
    T.transfer auth st token sender receiver amount = .ok st' → ∀ t a,
      T.balance st' t a = T.balance st t a - moved token sender amount t a + moved token receiver amount t a
  mint : ∀ {auth st token admin receiver amount st'},
    T.mint auth st token admin receiver amount = .ok st' → ∀ t a,
      T.balance st' t a = T.balance st t a + moved token receiver amount t a
  burn : ∀ {auth st token holder amount st'},
    T.burn auth st token holder amount = .ok st' → ∀ t a,
      T.balance st' t a = T.balance st t a - moved token holder amount t a

/-- Besides, no call moves less than nothing. -/
structure Honest (T : TokenContracts τ) : Prop extends T.Exact where
  transfer_nonneg : ∀ {auth st token sender receiver amount st'},
    T.transfer auth st token sender receiver amount = .ok st' → 0 ≤ amount
  mint_nonneg : ∀ {auth st token admin receiver amount st'},
    T.mint auth st token admin receiver amount = .ok st' → 0 ≤ amount

/-- A holder can always move what it has: authorised transfers and burns of no more than its balance succeed. -/
structure Liquid (T : TokenContracts τ) : Prop where
  transfer : ∀ {auth st token sender amount}, auth sender = true → 0 ≤ amount → amount ≤ T.balance st token sender →
    ∀ receiver, ∃ st', T.transfer auth st token sender receiver amount = .ok st'
  burn : ∀ {auth st token holder amount}, auth holder = true → 0 ≤ amount → amount ≤ T.balance st token holder →
    ∃ st', T.burn auth st token holder amount = .ok st'

end TokenContracts

theorem moved_nonneg {token account t a : Address} {amount : Int} (h : 0 ≤ amount) :
    0 ≤ moved token account amount t a := by
  unfold moved
  split
  · exact h
  · exact Int.le_refl 0

end CredBridge.Contracts
