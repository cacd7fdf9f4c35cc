import CredBridge.Contracts.PoolRuns
import CredBridge.Contracts.ShareToken

/-! # The supply of shares

The pool counts in `total_shares` what its share token's holders have. A deposit and a withdrawal move the
counter and the balances together, and nobody but the pool can mint; but the token's `burn` is open to every
holder, and the pool does not learn of it. So the two agree exactly along the runs in which nobody burns
shares but by a withdrawal. -/

namespace CredBridge.Contracts
open LiquidityPool Machine Result

/-! ### What the pool's calls do to the tokens -/

section PoolCalls
open MockBrltToken
variable {β : Type} {F : Fungible β} {tokens tokens' tokens'' : BrltContracts β} {token : Address} {delta : Int}
  {auth : Address → Bool} {sender receiver admin holder : Address} {amount : Int}

/-- Every token keeps its admin, and only the balances of `token` change in sum. -/
def TokensMove (F : Fungible β) (tokens tokens' : BrltContracts β) (token : Address) (delta : Int) : Prop :=
  ∀ t, (tokens t).Sums F (tokens' t) (if t = token then delta else 0)

theorem TokensMove.after_transfer {asset : Address} (h : TokensMove F tokens tokens' asset 0)
    (h' : TokensMove F tokens' tokens'' token delta) : TokensMove F tokens tokens'' token delta := by
  intro t
  have hsums := (h t).trans (h' t)
  rwa [ite_self, Int.zero_add] at hsums

theorem TokensMove.before_transfer {asset : Address} (h : TokensMove F tokens tokens' token delta)
    (h' : TokensMove F tokens' tokens'' asset 0) : TokensMove F tokens tokens'' token delta := by
  intro t
  have hsums := (h t).trans (h' t)
  rwa [ite_self, Int.add_zero] at hsums

theorem at_moves {call : MockBrltToken β → Except Trap (MockBrltToken β)} (h : tokens.at token call = .ok tokens')
    (hcall : ∀ s, call (tokens token) = .ok s → (tokens token).Sums F s delta) :
    TokensMove F tokens tokens' token delta := by
  obtain ⟨s, hs, htokens⟩ := BrltContracts.at_eq_ok h
  intro t
  rw [htokens t]
  by_cases ht : t = token
  · rw [if_pos ht, if_pos ht, ht]
    exact hcall s hs
  · rw [if_neg ht, if_neg ht]
    exact .refl _

theorem transfer_moves (hF : F.Lawful)
    (h : (brltContracts F).transfer auth tokens token sender receiver amount = .ok tokens') :
    TokensMove F tokens tokens' token 0 := by
  have h : tokens.at token (·.transfer F auth sender receiver amount) = .ok tokens' := h
  exact at_moves h fun _ => transfer_sums hF

theorem mint_moves (hF : F.Lawful) (h : (brltContracts F).mint auth tokens token admin receiver amount = .ok tokens') :
    TokensMove F tokens tokens' token amount := by
  have h : tokens.at token (·.mint F auth admin receiver amount) = .ok tokens' := h
  exact at_moves h fun _ => mint_sums hF

theorem burn_moves (hF : F.Lawful) (h : (brltContracts F).burn auth tokens token holder amount = .ok tokens') :
    TokensMove F tokens tokens' token (-amount) := by
  have h : tokens.at token (·.burn F auth holder amount) = .ok tokens' := h
  exact at_moves h fun _ => burn_sums hF

theorem admin_of_mint (h : (brltContracts F).mint auth tokens token admin receiver amount = .ok tokens') :
    (tokens token).admin = some admin := by
  have h : tokens.at token (·.mint F auth admin receiver amount) = .ok tokens' := h
  obtain ⟨_, hs, -⟩ := BrltContracts.at_eq_ok h
  exact (mint_admin hs).2

/-- What a call of the pool does to its shares: the counter and the balances in sum change by the same amount. -/
inductive ShareChange (F : Fungible β) (w w' : PoolAndTokens β) : Prop where
  | opened (st : PoolState) : w.state? = none → w'.state? = some st → st.totalShares = 0 → w'.tokens = w.tokens →
      ShareChange F w w'
  | moved (st st' : PoolState) (delta : Int) : w.state? = some st → w'.state? = some st' →
      st'.shareTokenAddress = st.shareTokenAddress → st'.totalShares = st.totalShares + delta →
      -- There are no shares to move before the token has an admin.
      ((w.tokens st.shareTokenAddress).admin = none → st.totalShares = 0 → delta = 0) →
      TokensMove F w.tokens w'.tokens st.shareTokenAddress delta → ShareChange F w w'

theorem ShareChange.kept {w w' : PoolAndTokens β} {st st' : PoolState} {asset : Address} (hst : w.state? = some st)
    (hst' : w'.state? = some st') (hshare : st'.shareTokenAddress = st.shareTokenAddress)
    (htotal : st'.totalShares = st.totalShares) (htokens : TokensMove F w.tokens w'.tokens asset 0) :
    ShareChange F w w' := by
  refine .moved st st' 0 hst hst' hshare (htotal.trans (Int.add_zero _).symm) (fun _ _ => rfl) fun t => ?_
  have hsums := htokens t
  rwa [ite_self] at hsums ⊢

theorem TokensMove.of_eq {w w' : PoolAndTokens β} (h : w'.tokens = w.tokens) (asset : Address) :
    TokensMove F w.tokens w'.tokens asset 0 := by
  intro t
  rw [h, ite_self]
  exact .refl _

theorem invoke_shareChange (hF : F.Lawful) {pool : Address} {w w' : PoolAndTokens β} {inv : Invocation}
    (h : LiquidityPool.invoke (brltContracts F) pool w inv = .ok w') : ShareChange F w w' := by
  obtain ⟨auth, timestamp, call⟩ := inv
  cases call with
  | initializePool admin operator asset share =>
    obtain ⟨hfresh, hs, htokens⟩ := initializePool_inv h
    exact .opened _ (state?_eq_none hfresh) (state?_of_saved (by rw [hs]) (by rw [hs])) rfl htokens
  | deposit investor amount =>
    obtain ⟨st, shares, tokens, hst, -, -, htransfer, -, hmint, hs⟩ := deposit_inv h
    refine .moved st _ shares hst (state?_saveState hst hs rfl) rfl rfl (fun hnone => ?_)
      ((transfer_moves hF htransfer).after_transfer (mint_moves hF hmint))
    have hadmin := (transfer_moves hF htransfer st.shareTokenAddress).admin
    rw [admin_of_mint hmint, hnone] at hadmin
    cases hadmin
  | withdraw investor shares =>
    obtain ⟨st, paid, tokens, hst, -, hpos, hle, -, -, -, hburn, htransfer, hs⟩ := withdraw_inv h
    refine .moved st _ (-shares) hst (state?_saveState hst hs rfl) rfl rfl (fun _ hzero => ?_)
      ((burn_moves hF hburn).before_transfer (transfer_moves hF htransfer))
    omega
  | buyTokenizedInvoice operator seller hash face advance rate maturity =>
    obtain ⟨st, hst, -, -, -, -, -, -, htransfer, hs⟩ := buyTokenizedInvoice_inv h
    exact .kept hst (state?_saveState hst hs rfl) rfl rfl (transfer_moves hF htransfer)
  | settleInvoiceInPool operator hash principal =>
    obtain ⟨st, hst, -, -, -, htokens, hs⟩ := settleInvoiceInPool_inv h
    exact .kept hst (state?_saveState hst hs rfl) rfl rfl (.of_eq htokens pool)
  | pause admin =>
    obtain ⟨st, hst, -, htokens, hs⟩ := setPaused_inv h
    exact .kept hst (state?_saveState hst hs rfl) rfl rfl (.of_eq htokens pool)
  | unpause admin =>
    obtain ⟨st, hst, -, htokens, hs⟩ := setPaused_inv h
    exact .kept hst (state?_saveState hst hs rfl) rfl rfl (.of_eq htokens pool)
  | setOperator admin operator =>
    obtain ⟨st, hst, -, htokens, hs⟩ := setOperator_inv h
    exact .kept hst (state?_saveState hst hs rfl) rfl rfl (.of_eq htokens pool)

/-! ### What the token's own calls do -/

/-- A call that initializes the token gives it an admin; any other moves balances, and only the admin can mint. -/
inductive TokenChange (F : Fungible β) (auth : Address → Bool) (s s' : MockBrltToken β) : MockBrltCall → Prop where
  | initialized (admin : Address) (name symbol : String) (decimals : Nat) : s.initialized = false →
      s'.admin = some admin → s'.initialized = true → (∀ a, F.balance s'.base a = F.balance s.base a) →
      TokenChange F auth s s' (.initializeToken admin name symbol decimals)
  | minted (admin receiver : Address) (amount : Int) : auth admin = true → s.admin = some admin →
      s.Sums F s' amount → TokenChange F auth s s' (.mint admin receiver amount)
  | moved (call : MockBrltCall) : 0 ≤ call.burned → s.Sums F s' (-call.burned) → TokenChange F auth s s' call

theorem invoke_tokenChange (hF : F.Lawful) {info : LedgerInfo} {s s' : MockBrltToken β} {call : MockBrltCall}
    (h : s.invoke F auth info call = .ok s') : TokenChange F auth s s' call := by
  cases call with
  | initializeToken admin name symbol decimals =>
    obtain ⟨hnew, h⟩ := throwIf_bind_eq_ok.mp h
    obtain ⟨base, hbase, h⟩ := bind_eq_ok.mp h
    cases pure_eq_ok.mp h
    exact .initialized admin name symbol decimals (Bool.eq_false_iff.mpr hnew) rfl rfl (hF.setMetadata hbase)
  | mint admin receiver amount => exact .minted admin receiver amount (mint_admin h).1 (mint_admin h).2 (mint_sums hF h)
  | burn holder amount => exact .moved _ (MockBrltToken.burn_moves hF h).base.nonneg (burn_sums hF h)
  | transfer sender receiver amount => exact .moved _ (Int.le_refl 0) (transfer_sums hF h)
  | transferFrom spender sender receiver amount =>
    obtain ⟨base, hbase, h⟩ := bind_eq_ok.mp h
    cases pure_eq_ok.mp h
    have hmoves : s.Moves F { s with base } (some sender) (some receiver) amount := ⟨rfl, rfl, hF.transferFrom hbase⟩
    have hsums := hmoves.sums
    rw [show Fungible.movedOf (some receiver) amount - Fungible.movedOf (some sender) amount = 0 from
      Int.sub_self amount] at hsums
    exact .moved _ (Int.le_refl 0) hsums
  | approve owner spender amount liveUntilLedger =>
    obtain ⟨base, hbase, h⟩ := bind_eq_ok.mp h
    cases pure_eq_ok.mp h
    exact .moved _ (Int.le_refl 0) (.of_balance rfl rfl (hF.approve hbase))

end PoolCalls

/-! ### The counter and the balances -/

namespace PoolAndTokens

section Statements
variable {β : Type} (F : Fungible β) (pool : Address)

/-- The counter is the sum of the balances of the share token, whose admin is the pool. -/
def SharesAgree (s : PoolAndTokens β) : Prop :=
  ∀ st ∈ s.state?, (s.tokens st.shareTokenAddress).admin = some pool →
    st.totalShares = (s.tokens st.shareTokenAddress).total F

/-- Nothing of the pool's shares is burned but by the pool. -/
def BurnsNoShares (s : PoolAndTokens β) (c : PublicCall) : Prop :=
  ∀ st ∈ s.state?, (s.tokens st.shareTokenAddress).admin = some pool → c.burned st.shareTokenAddress = 0

instance : DecidablePred (SharesAgree F pool) := fun s =>
  inferInstanceAs (Decidable (∀ st ∈ s.state?, _ → _))

instance (s : PoolAndTokens β) (c : PublicCall) : Decidable (s.BurnsNoShares pool c) :=
  inferInstanceAs (Decidable (∀ st ∈ s.state?, _ → _))

/-- Nobody has a token before it has an admin, nor shares of the pool before the pool is initialized. -/
structure Issued (s : PoolAndTokens β) : Prop where
  nonneg : ∀ t, (F.balances (s.tokens t).base).Nonneg
  unowned : ∀ t, (s.tokens t).initialized = false → (s.tokens t).admin = none
  empty : ∀ t, (s.tokens t).admin = none → (s.tokens t).total F = 0
  unissued : s.state? = none → ∀ t, (s.tokens t).admin = some pool → (s.tokens t).total F = 0
  idle : ∀ st ∈ s.state?, (s.tokens st.shareTokenAddress).admin = none → st.totalShares = 0

end Statements

section Steps
variable {β : Type} {F : Fungible β} {pool : Address} {s t : PoolAndTokens β}

theorem token_inv (hF : F.Lawful) {auth : Address → Bool} {info : LedgerInfo} {token : Address} {call : MockBrltCall}
    (h : s.step F pool (.token auth info token call) = .ok t) :
    TokenChange F (outside pool auth) (s.tokens token) (t.tokens token) call ∧
      (∀ k, k ≠ token → t.tokens k = s.tokens k) ∧ t.storage = s.storage := by
  obtain ⟨tokens, htokens, h⟩ := bind_eq_ok.mp h
  cases pure_eq_ok.mp h
  obtain ⟨c, hc, hat⟩ := BrltContracts.at_eq_ok htokens
  refine ⟨?_, fun k hk => (hat k).trans (if_neg hk), rfl⟩
  have hself : tokens token = c := (hat token).trans (if_pos rfl)
  show TokenChange F _ _ (tokens token) call
  exact hself ▸ invoke_tokenChange hF hc

theorem Issued.pool_call (hI : s.Issued F pool) (h : ShareChange F s t) :
    t.Issued F pool ∧ (s.SharesAgree F pool → t.SharesAgree F pool) := by
  cases h with
  | opened st hnone hst hzero htokens =>
    constructor
    · constructor
      · rw [htokens]
        exact hI.nonneg
      · rw [htokens]
        exact hI.unowned
      · rw [htokens]
        exact hI.empty
      · intro hnone'
        rw [hst] at hnone'
        cases hnone'
      · intro st' hst' _
        rw [hst] at hst'
        cases hst'
        exact hzero
    · intro _ st' hst' hadmin
      rw [hst] at hst'
      cases hst'
      rw [htokens] at hadmin ⊢
      rw [hzero, hI.unissued hnone _ hadmin]
  | moved st st' delta hst hst' hshare htotal hidle htokens =>
    have hmoved := htokens st.shareTokenAddress
    rw [if_pos rfl] at hmoved
    have hnone : (s.tokens st.shareTokenAddress).admin = none → delta = 0 := fun hadmin =>
      hidle hadmin (hI.idle st hst hadmin)
    constructor
    · constructor
      · exact fun k => (htokens k).nonneg (hI.nonneg k)
      · intro k hk
        rw [(htokens k).admin]
        exact hI.unowned k ((htokens k).initialized.symm.trans hk)
      · intro k hk
        have hk : (s.tokens k).admin = none := (htokens k).admin.symm.trans hk
        rw [(htokens k).total, hI.empty k hk, Int.zero_add]
        split
        · next heq => exact hnone (heq ▸ hk)
        · rfl
      · intro hnone'
        rw [hst'] at hnone'
        cases hnone'
      · intro st₁ hst₁ hadmin
        rw [hst'] at hst₁
        cases hst₁
        rw [hshare, hmoved.admin] at hadmin
        rw [htotal, hI.idle st hst hadmin, hnone hadmin, Int.add_zero]
    · intro hA st₁ hst₁ hadmin
      rw [hst'] at hst₁
      cases hst₁
      rw [hshare, hmoved.admin] at hadmin
      rw [hshare, htotal, hmoved.total, hA st hst hadmin]

/-- Only one token has changed. -/
def ChangesOnly (token : Address) (s t : PoolAndTokens β) : Prop :=
  (∀ k, k ≠ token → t.tokens k = s.tokens k) ∧ t.state? = s.state?

theorem Issued.change {token : Address} (hI : s.Issued F pool) (h : ChangesOnly token s t)
    (hnonneg : (F.balances (t.tokens token).base).Nonneg)
    (hunowned : (t.tokens token).initialized = false → (t.tokens token).admin = none)
    (hempty : (t.tokens token).admin = none → (t.tokens token).total F = 0)
    (hunissued : s.state? = none → (t.tokens token).admin = some pool →
      (t.tokens token).total F = 0)
    (hidle : (t.tokens token).admin = none → (s.tokens token).admin = none) : t.Issued F pool := by
  obtain ⟨hothers, hstate⟩ := h
  constructor
  · intro k
    rcases eq_or_ne k token with rfl | hk
    · exact hnonneg
    · rw [hothers k hk]
      exact hI.nonneg k
  · intro k
    rcases eq_or_ne k token with rfl | hk
    · exact hunowned
    · rw [hothers k hk]
      exact hI.unowned k
  · intro k
    rcases eq_or_ne k token with rfl | hk
    · exact hempty
    · rw [hothers k hk]
      exact hI.empty k
  · intro hnone k
    rw [hstate] at hnone
    rcases eq_or_ne k token with rfl | hk
    · exact hunissued hnone
    · rw [hothers k hk]
      exact hI.unissued hnone k
  · intro st hst
    rw [hstate] at hst
    rcases eq_or_ne st.shareTokenAddress token with heq | hk
    · rw [heq]
      exact fun hadmin => hI.idle st hst (heq ▸ hidle hadmin)
    · rw [hothers _ hk]
      exact hI.idle st hst

theorem sharesAgree_change {token : Address} (hA : s.SharesAgree F pool) (h : ChangesOnly token s t) :
    t.SharesAgree F pool ↔ ∀ st ∈ s.state?, st.shareTokenAddress = token →
      (t.tokens token).admin = some pool → st.totalShares = (t.tokens token).total F := by
  obtain ⟨hothers, hstate⟩ := h
  unfold SharesAgree
  rw [hstate]
  constructor
  · rintro hall st hst rfl
    exact hall st hst
  · intro hall st hst
    rcases eq_or_ne st.shareTokenAddress token with heq | hk
    · rw [heq]
      exact hall st hst heq
    · rw [hothers _ hk]
      exact hA st hst

theorem Issued.token_call (hF : F.Lawful) (hI : s.Issued F pool) {auth : Address → Bool} {info : LedgerInfo} {token : Address}
    {call : MockBrltCall} (h : s.step F pool (.token auth info token call) = .ok t) :
    t.Issued F pool ∧ (s.SharesAgree F pool → (t.SharesAgree F pool ↔ s.BurnsNoShares pool (.token auth info token call))) := by
  obtain ⟨hchange, hothers, hstorage⟩ := token_inv hF h
  have honly : ChangesOnly token s t := ⟨hothers, state?_congr hstorage⟩
  have hburns : s.BurnsNoShares pool (.token auth info token call) ↔ ∀ st ∈ s.state?,
      st.shareTokenAddress = token → (s.tokens token).admin = some pool → call.burned = 0 := by
    constructor
    · rintro hall st hst rfl hadmin
      exact (if_pos rfl).symm.trans (hall st hst hadmin)
    · intro hall st hst hadmin
      show (if token = st.shareTokenAddress then call.burned else 0) = 0
      split
      · next heq => exact hall st hst heq.symm (heq ▸ hadmin)
      · rfl
  cases hchange with
  | initialized admin name symbol decimals hnew hadmin hinit hbalance =>
    have hnone : (s.tokens token).admin = none := hI.unowned token hnew
    have hempty : (t.tokens token).total F = 0 := (Tally.total_congr hbalance).trans (hI.empty token hnone)
    constructor
    · refine hI.change honly (fun a => ?_) (fun hnew' => ?_) (fun _ => hempty) (fun _ _ => hempty) fun _ => hnone
      · have ha : (F.balances (t.tokens token).base).get a = _ := hbalance a
        rw [ha]
        exact hI.nonneg token a
      · rw [hinit] at hnew'
        cases hnew'
    · intro hA
      rw [hburns, sharesAgree_change hA honly]
      refine iff_of_true (fun st hst heq _ => ?_) fun _ _ _ _ => rfl
      rw [hempty]
      exact hI.idle st hst (heq ▸ hnone)
  | minted admin receiver amount hauth hadmin hmoves =>
    have hother : admin ≠ pool := fun heq => by simp [outside, heq] at hauth
    have hadmin' : (t.tokens token).admin = some admin := hmoves.admin.trans hadmin
    have hpool : (t.tokens token).admin ≠ some pool := fun heq => hother (Option.some.inj (hadmin' ▸ heq))
    constructor
    · refine hI.change honly (hmoves.nonneg (hI.nonneg token)) (fun hnew => ?_) (fun hnone => ?_)
        (fun _ heq => absurd heq hpool) (fun hnone => ?_)
      · rw [hI.unowned token (hmoves.initialized ▸ hnew)] at hadmin
        cases hadmin
      · rw [hadmin'] at hnone
        cases hnone
      · rw [hadmin'] at hnone
        cases hnone
    · intro hA
      rw [hburns, sharesAgree_change hA honly]
      exact iff_of_true (fun _ _ _ heq => absurd heq hpool) fun _ _ _ _ => rfl
  | moved _ hburned hmoves =>
    have hnonneg := hmoves.nonneg (hI.nonneg token)
    have hstays : (s.tokens token).total F = 0 → (t.tokens token).total F = 0 := fun hzero => by
      have htotal := hmoves.total
      have hle : 0 ≤ (t.tokens token).total F := hnonneg.total
      omega
    constructor
    · refine hI.change honly hnonneg (fun hnew => ?_) (fun hnone => ?_) (fun hfresh hadmin => ?_) (fun hnone => ?_)
      · rw [hmoves.admin]
        exact hI.unowned token (hmoves.initialized ▸ hnew)
      · exact hstays (hI.empty token (hmoves.admin ▸ hnone))
      · exact hstays (hI.unissued hfresh token (hmoves.admin ▸ hadmin))
      · exact hmoves.admin ▸ hnone
    · intro hA
      rw [hburns, sharesAgree_change hA honly]
      refine forall₃_congr fun st hst heq => ?_
      rw [hmoves.admin, hmoves.total]
      refine forall_congr' fun hadmin => ?_
      have hagree : st.totalShares = (s.tokens token).total F := heq ▸ hA st hst (heq ▸ hadmin)
      omega

theorem Issued.step (hF : F.Lawful) (hI : s.Issued F pool) {c : PublicCall} (h : s.step F pool c = .ok t) :
    t.Issued F pool ∧ (s.SharesAgree F pool → (t.SharesAgree F pool ↔ s.BurnsNoShares pool c)) := by
  cases c with
  | pool inv =>
    obtain ⟨hI', hA⟩ := hI.pool_call (invoke_shareChange hF h)
    exact ⟨hI', fun hs => ⟨fun _ _ _ _ => rfl, fun _ => hA hs⟩⟩
  | token auth info token call => exact hI.token_call hF h

theorem issued_deployed (hF : F.Lawful) : (deployed F).Issued F pool where
  nonneg _ a := Int.le_of_eq (hF.new a).symm
  unowned _ _ := rfl
  empty _ _ := (Tally.total_congr (t := .empty) hF.new).trans rfl
  unissued _ _ _ := (Tally.total_congr (t := .empty) hF.new).trans rfl
  idle := nofun

end Steps
end PoolAndTokens

/-- From the deployment of the contracts on, under every public call of the pool and of the tokens by anyone, the pool's
    counter of shares is the sum of the balances of its share token exactly if nobody burns shares directly. -/
theorem share_supply_agrees_iff_burns_none {β : Type} {F : Fungible β} (hF : F.Lawful) (pool : Address)
    (cs : List PublicCall) :
    Throughout (PoolAndTokens.step F pool) (PoolAndTokens.SharesAgree F pool) (.deployed F) cs ↔
      Along (PoolAndTokens.step F pool) (fun s c => ∀ t, s.step F pool c = .ok t → s.BurnsNoShares pool c)
        (.deployed F) cs :=
  throughout_iff_along (I := PoolAndTokens.Issued F pool) (fun _ _ _ hI h => (hI.step hF h).1)
    (fun _ _ _ hI hA h => (hI.step hF h).2 hA) (PoolAndTokens.issued_deployed hF) nofun

section Examples
open Deployment

def sharesIssued : List PublicCall :=
  [.token (signedBy admin) ⟨0, 100⟩ brlt (.initializeToken admin "Brazilian Real" "BRLT" 7),
    .token (signedBy admin) ⟨0, 100⟩ shareToken (.initializeToken pool "Pool share" "CPS" 7),
    .pool ⟨signedBy admin, 0, .initializePool admin operator brlt shareToken⟩,
    .token (signedBy admin) ⟨0, 100⟩ brlt (.mint admin investor 100),
    .pool ⟨signedBy investor, 0, .deposit investor 100⟩]

theorem share_supply_agrees_iff_burns_none_issued :
    Throughout (PoolAndTokens.step heldTokens pool) (PoolAndTokens.SharesAgree heldTokens pool) (.deployed heldTokens)
      sharesIssued :=
  (share_supply_agrees_iff_burns_none heldTokens_lawful pool sharesIssued).mpr
    (Along.mono (Q := fun s c => s.BurnsNoShares pool c) (by decide) fun _ _ h _ _ => h)

/-- The investor burns 40 of its 100 shares at the share token. -/
theorem direct_burn_leaves_counter :
    ¬Throughout (PoolAndTokens.step heldTokens pool) (PoolAndTokens.SharesAgree heldTokens pool) (.deployed heldTokens)
      (sharesIssued ++ [.token (signedBy investor) ⟨0, 100⟩ shareToken (.burn investor 40)]) := by
  decide

end Examples
end CredBridge.Contracts
