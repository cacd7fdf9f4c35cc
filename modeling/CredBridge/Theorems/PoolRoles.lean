import CredBridge.Contracts.PoolRuns

/-! # The roles of the pool

Each entry point asks for the authorisation of one address first, and then checks that address against the roles that
are stored. No call stores another admin or another token, only the admin's call stores another operator, and while the
pool is paused the calls that are not refused write nothing but the flag and the operator. -/

namespace CredBridge.Contracts.LiquidityPool
open Result Machine

/-- Whose authorisation a call asks for. -/
def Call.caller? : Call → Option Address
  | .initializePool .. => none
  | .deposit investor _ | .withdraw investor _ => some investor
  | .buyTokenizedInvoice operator .. | .settleInvoiceInPool operator .. => some operator
  | .pause admin | .unpause admin | .setOperator admin _ => some admin

/-- In whose name a call purchases or settles an invoice. -/
def Call.trader? : Call → Option Address
  | .buyTokenizedInvoice operator .. | .settleInvoiceInPool operator .. => some operator
  | _ => none

def Call.appoints? : Call → Option Address
  | .setOperator _ newOperator => some newOperator
  | _ => none

def Input.trader? : Input → Option Address
  | .invoke inv => inv.call.trader?
  | _ => none

def Input.appoints? : Input → Option Address
  | .invoke inv => inv.call.appoints?
  | _ => none

/-- The admin and the tokens of a pool that is initialised are those of the state. -/
def KeepsRoles {τ : Type} (s t : Ledger τ) : Prop :=
  ∀ st ∈ s.world.state?, ∃ st' ∈ t.world.state?, st'.admin = st.admin ∧ st'.assetAddress = st.assetAddress ∧
    st'.shareTokenAddress = st.shareTokenAddress

/-- The accounts, the processed invoices and the balances are those of the state. -/
structure Frozen {τ : Type} (w w' : World τ) (st st' : PoolState) : Prop where
  totalShares : st'.totalShares = st.totalShares
  totalPrincipal : st'.totalPrincipal = st.totalPrincipal
  processedInvoice : w'.storage.processedInvoice = w.storage.processedInvoice
  tokens : w'.tokens = w.tokens

/-- What a call that succeeded on a pool that is initialised kept, and which roles it was made in. -/
structure Permitted {τ : Type} (w w' : World τ) (inv : Invocation) (st st' : PoolState) : Prop where
  admin : st'.admin = st.admin
  assetAddress : st'.assetAddress = st.assetAddress
  shareTokenAddress : st'.shareTokenAddress = st.shareTokenAddress
  caller : ∀ a ∈ inv.call.caller?, inv.auth a = true
  trader : ∀ a ∈ inv.call.trader?, a = st.operator ∨ a = st.admin
  operator : st'.operator = st.operator ∨
    inv.call.appoints? = some st'.operator ∧ inv.auth st.admin = true
  paused : st.paused = true → Frozen w w' st st'

section Calls
variable {τ : Type} {T : TokenContracts τ} {self : Address} {w w' : World τ} {inv : Invocation}

theorem invoke_caller (h : invoke T self w inv = .ok w') : ∀ a ∈ inv.call.caller?, inv.auth a = true := by
  intro a ha
  have hauth : ∀ {f : Unit → Except Trap (World τ)}, requireAuth inv.auth a >>= f = .ok w' → inv.auth a = true := by
    intro f hbind
    obtain ⟨_, hrequire, -⟩ := bind_eq_ok.mp hbind
    exact requireAuth_eq_ok.mp hrequire
  obtain ⟨auth, timestamp, call⟩ := inv
  cases call with
  | initializePool => cases ha
  | deposit | withdraw | buyTokenizedInvoice | settleInvoiceInPool | pause | unpause | setOperator =>
    cases ha
    exact hauth h

/-- A call that succeeds initialises the pool, or is permitted by the state that it finds. -/
theorem invoke_permitted (h : invoke T self w inv = .ok w') :
    w.state? = none ∧ inv.call.trader? = none ∨
      ∃ st st', w.state? = some st ∧ w'.state? = some st' ∧ Permitted w w' inv st st' := by
  have hcaller := invoke_caller h
  obtain ⟨auth, timestamp, call⟩ := inv
  cases call with
  | initializePool admin operator asset share =>
    obtain ⟨hinit, -, -⟩ := initializePool_inv h
    exact .inl ⟨state?_eq_none hinit, rfl⟩
  | deposit investor amount =>
    obtain ⟨st, shares, _, hst, hpaused, -, -, -, -, hs⟩ := deposit_inv h
    refine .inr ⟨st, _, hst, state?_saveState hst hs rfl, rfl, rfl, rfl, hcaller, nofun, .inl rfl, fun hp => ?_⟩
    simp [hpaused] at hp
  | withdraw investor shares =>
    obtain ⟨st, _, _, hst, hpaused, -, -, -, -, -, -, -, hs⟩ := withdraw_inv h
    refine .inr ⟨st, _, hst, state?_saveState hst hs rfl, rfl, rfl, rfl, hcaller, nofun, .inl rfl, fun hp => ?_⟩
    simp [hpaused] at hp
  | buyTokenizedInvoice operator seller hash face advance rate maturity =>
    obtain ⟨st, hst, hpaused, htrader, -, -, -, -, -, hs⟩ := buyTokenizedInvoice_inv h
    refine .inr ⟨st, _, hst, state?_saveState hst hs rfl, rfl, rfl, rfl, hcaller, ?_, .inl rfl, fun hp => ?_⟩
    · rintro _ ⟨⟩
      exact htrader
    · simp [hpaused] at hp
  | settleInvoiceInPool operator hash principal =>
    obtain ⟨st, hst, hpaused, htrader, -, -, hs⟩ := settleInvoiceInPool_inv h
    refine .inr ⟨st, _, hst, state?_saveState hst hs rfl, rfl, rfl, rfl, hcaller, ?_, .inl rfl, fun hp => ?_⟩
    · rintro _ ⟨⟩
      exact htrader
    · simp [hpaused] at hp
  | pause admin | unpause admin =>
    obtain ⟨st, hst, -, htokens, hs⟩ := setPaused_inv h
    exact .inr ⟨st, _, hst, state?_saveState hst hs rfl, rfl, rfl, rfl, hcaller, nofun, .inl rfl,
      fun _ => ⟨rfl, rfl, by rw [hs]; rfl, htokens⟩⟩
  | setOperator admin operator =>
    obtain ⟨st, hst, rfl, htokens, hs⟩ := setOperator_inv h
    exact .inr ⟨st, _, hst, state?_saveState hst hs rfl, rfl, rfl, rfl, hcaller, nofun,
      .inr ⟨rfl, hcaller _ rfl⟩, fun _ => ⟨rfl, rfl, by rw [hs]; rfl, htokens⟩⟩

end Calls

/-! ### Steps of the ledger -/

/-- What a step may do to the roles, what it may do while the pool is paused, and who authorised it. -/
structure Ledger.Guarded {τ : Type} (T : TokenContracts τ) (self : Address) (s : Ledger τ) (i : Input) : Prop where
  operator : ∀ t, s.step T self i = .ok t → ∀ st ∈ s.world.state?, ∀ st' ∈ t.world.state?,
    st'.operator ≠ st.operator → ∃ inv, i = .invoke inv ∧ inv.auth st.admin = true
  paused : ∀ inv t, i = .invoke inv → s.step T self i = .ok t → ∀ st ∈ s.world.state?, st.paused = true →
    ∃ st' ∈ t.world.state?, Frozen s.world t.world st st'
  trade : ∀ inv t, i = .invoke inv → s.step T self i = .ok t → ∀ a ∈ inv.call.trader?,
    inv.auth a = true ∧ ∃ st ∈ s.world.state?, a = st.operator ∨ a = st.admin
  fund : ∀ inv t investor amount, i = .invoke inv → s.step T self i = .ok t →
    inv.call = .deposit investor amount ∨ inv.call = .withdraw investor amount → inv.auth investor = true

/-- The address is neither the operator nor the admin. -/
def Ledger.Excludes {τ : Type} (s : Ledger τ) (a : Address) : Prop :=
  ∃ st ∈ s.world.state?, a ≠ st.operator ∧ a ≠ st.admin

section Steps
variable {τ : Type} {T : TokenContracts τ} {self : Address} {s t : Ledger τ} {i : Input} {inv : Invocation}
  {st : PoolState} {a : Address}

/-- An invocation on a pool that is initialised is permitted. -/
theorem Ledger.step_permitted (h : s.step T self (.invoke inv) = .ok t) (hst : s.world.state? = some st) :
    ∃ st', t.world.state? = some st' ∧ Permitted s.world t.world inv st st' := by
  rcases invoke_permitted (Ledger.invoke_inv h).1 with ⟨hnone, -⟩ | ⟨st₀, st', hst₀, hst', hpermitted⟩
  · simp [hst] at hnone
  · cases hst₀.symm.trans hst
    exact ⟨st', hst', hpermitted⟩

/-- What is not an invocation of the pool leaves alone what the pool stores. -/
theorem Ledger.step_state? (h : s.step T self i = .ok t) (hinvoke : ∀ inv, i ≠ .invoke inv) :
    t.world.state? = s.world.state? := by
  cases i with
  | token auth call => exact state?_congr (Ledger.token_inv h).2.1
  | repay auth payer hash amount =>
    obtain ⟨-, -, -, hs, -⟩ := Ledger.repay_inv h
    exact state?_congr hs
  | invoke inv => exact absurd rfl (hinvoke inv)

theorem KeepsRoles.of_state? (h : t.world.state? = s.world.state?) : KeepsRoles s t := by
  intro st hst
  exact ⟨st, h.trans hst, rfl, rfl, rfl⟩

theorem KeepsRoles.trans {u : Ledger τ} (h : KeepsRoles s t) (h' : KeepsRoles t u) : KeepsRoles s u := by
  intro st hst
  obtain ⟨st', hst', hadmin, hasset, hshare⟩ := h st hst
  obtain ⟨st'', hst'', hadmin', hasset', hshare'⟩ := h' st' hst'
  exact ⟨st'', hst'', hadmin'.trans hadmin, hasset'.trans hasset, hshare'.trans hshare⟩

theorem Ledger.keepsRoles_step (h : s.step T self i = .ok t) : KeepsRoles s t := by
  cases i with
  | token | repay => exact .of_state? (Ledger.step_state? h nofun)
  | invoke inv =>
    intro st hst
    obtain ⟨st', hst', hpermitted⟩ := Ledger.step_permitted h hst
    exact ⟨st', hst', hpermitted.admin, hpermitted.assetAddress, hpermitted.shareTokenAddress⟩

theorem Ledger.guarded (T : TokenContracts τ) (self : Address) (s : Ledger τ) (i : Input) : s.Guarded T self i where
  operator t h st hst st' hst' hne := by
    cases i with
    | token | repay =>
      rw [Ledger.step_state? h nofun] at hst'
      cases hst.symm.trans hst'
      exact absurd rfl hne
    | invoke inv =>
      obtain ⟨st₀, hst₀, hpermitted⟩ := Ledger.step_permitted h hst
      cases hst₀.symm.trans hst'
      exact ⟨inv, rfl, (hpermitted.operator.resolve_left hne).2⟩
  paused inv t hi h st hst hpaused := by
    subst hi
    obtain ⟨st', hst', hpermitted⟩ := Ledger.step_permitted h hst
    exact ⟨st', hst', hpermitted.paused hpaused⟩
  trade inv t hi h a ha := by
    subst hi
    rcases invoke_permitted (Ledger.invoke_inv h).1 with ⟨-, hnone⟩ | ⟨st, _, hst, -, hpermitted⟩
    · simp [hnone] at ha
    · have hcaller : a ∈ inv.call.caller? := by
        obtain ⟨auth, timestamp, call⟩ := inv
        cases call <;> cases ha <;> rfl
      exact ⟨hpermitted.caller a hcaller, st, hst, hpermitted.trader a ha⟩
  fund inv t investor amount hi h hcall := by
    subst hi
    refine invoke_caller (Ledger.invoke_inv h).1 investor ?_
    rcases hcall with hcall | hcall <;> rw [hcall] <;> rfl

theorem Ledger.Excludes.step (hs : s.Excludes a) (h : s.step T self i = .ok t) (happoints : i.appoints? ≠ some a) :
    i.trader? ≠ some a ∧ t.Excludes a := by
  obtain ⟨st, hst, hoperator, hadmin⟩ := hs
  cases i with
  | token | repay => exact ⟨nofun, st, (Ledger.step_state? h nofun).trans hst, hoperator, hadmin⟩
  | invoke inv =>
    obtain ⟨st', hst', hpermitted⟩ := Ledger.step_permitted h hst
    constructor
    · intro htrader
      rcases hpermitted.trader a htrader with rfl | rfl
      · exact hoperator rfl
      · exact hadmin rfl
    · refine ⟨st', hst', fun heq => ?_, hpermitted.admin ▸ hadmin⟩
      rcases hpermitted.operator with hsame | ⟨hnew, -⟩
      · exact hoperator (heq.trans hsame)
      · exact happoints (heq ▸ hnew)

theorem Ledger.Excludes.run {is : List Input} (hs : s.Excludes a)
    (happoints : ∀ i ∈ accepted (Ledger.step T self) s is, i.appoints? ≠ some a) :
    ∀ i ∈ accepted (Ledger.step T self) s is, i.trader? ≠ some a := by
  induction is generalizing s with
  | nil => simp [accepted]
  | cons i is ih =>
    cases h : Ledger.step T self s i with
    | error e =>
      rw [accepted_cons_of_error h] at happoints ⊢
      exact ih hs happoints
    | ok t =>
      rw [accepted_cons_of_ok h] at happoints ⊢
      simp only [List.forall_mem_cons] at happoints ⊢
      obtain ⟨htrader, ht⟩ := hs.step h happoints.1
      exact ⟨htrader, ih ht happoints.2⟩

end Steps

/-- In every run from the deployment, the admin and the tokens of the pool stay those of the first initialisation, each
    step is guarded, and an address that holds no role any more neither purchases nor settles until it is appointed. -/
theorem roles_and_pause {τ : Type} (T : TokenContracts τ) (pool : Address) (tokens : τ) (is : List Input) :
    Onward (Ledger.step T pool) KeepsRoles (.deployed tokens) is ∧
    Along (Ledger.step T pool) (Ledger.Guarded T pool) (.deployed tokens) is ∧
    ∀ js ks, is = js ++ ks → ∀ a, (run (Ledger.step T pool) (.deployed tokens) js).Excludes a →
      (∀ i ∈ accepted (Ledger.step T pool) (run (Ledger.step T pool) (.deployed tokens) js) ks, i.appoints? ≠ some a) →
      ∀ i ∈ accepted (Ledger.step T pool) (run (Ledger.step T pool) (.deployed tokens) js) ks, i.trader? ≠ some a := by
  refine ⟨?_, .of_all (Ledger.guarded T pool) _ is, fun _ _ _ _ hexcludes happoints => hexcludes.run happoints⟩
  exact onward_of_along (I := fun _ => True) (Q := fun _ _ => True) (fun _ => .of_state? rfl) (fun _ _ _ => .trans)
    (fun _ _ _ _ _ h => ⟨trivial, Ledger.keepsRoles_step h⟩) trivial (.of_all (fun _ _ => trivial) _ is)

section Witness
open Deployment

def replaced : List Input := [initializes, deposits investor 100, .invoke ⟨signedBy admin, 0, .setOperator admin bystander⟩]

/-- The replaced operator tries to buy an invoice. -/
theorem roles_and_pause_replaced :
    ∀ i ∈ accepted (Ledger.step mockBrlt pool) (run (Ledger.step mockBrlt pool) ledger replaced) [buys 1 60],
      i.trader? ≠ some operator :=
  (roles_and_pause mockBrlt pool tokens (replaced ++ [buys 1 60])).2.2 replaced [buys 1 60] rfl operator
    ⟨_, rfl, by decide, by decide⟩ (by decide)

end Witness

end CredBridge.Contracts.LiquidityPool
