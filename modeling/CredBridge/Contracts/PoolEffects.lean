import CredBridge.Contracts.LiquidityPool

/-! # What the pool's calls do

For each entry point of the pool, everything a call that succeeded did: which checks it passed, which
token calls it made and what it stored. With tokens that move exactly the amount asked, this gives the
pool's accounts after the call: its cash, its principal and its shares. -/

namespace CredBridge.Contracts.LiquidityPool
open Result

section Storage
variable {τ : Type} {w : World τ} {s : Storage} {st : PoolState}

theorem loadState_eq_ok : loadState w.storage = .ok st ↔ w.state? = some st := by
  unfold loadState World.state?
  rw [throwIf_bind_eq_ok, orThrow_eq_ok]
  cases w.storage.initialized <;> simp

theorem initialized_of_state? (h : w.state? = some st) : w.storage.initialized = true := by
  unfold World.state? at h
  split at h
  · assumption
  · cases h

theorem state?_eq_none (h : w.storage.initialized = false) : w.state? = none := by
  unfold World.state?
  rw [h]
  rfl

theorem state?_of_saved (hinit : w.storage.initialized = true) (hs : w.storage.poolState = some st) :
    w.state? = some st := by
  unfold World.state?
  rw [if_pos hinit, hs]

theorem state?_saveState {w' : World τ} {s : Storage} {st' : PoolState} (h : w.state? = some st)
    (hs : w'.storage = saveState s st') (hinit : s.initialized = w.storage.initialized) : w'.state? = some st' :=
  state?_of_saved (by rw [hs, ← initialized_of_state? h, ← hinit]; rfl) (by rw [hs]; rfl)

theorem requireOperator_eq_ok {caller : Address} {u : Unit} :
    requireOperator st caller = .ok u ↔ caller = st.operator ∨ caller = st.admin := by
  unfold requireOperator
  rw [throwIf_eq_ok, Decidable.not_and_iff_not_or_not, Decidable.not_not, Decidable.not_not]

end Storage

section Inversion
variable {τ : Type} {T : TokenContracts τ} {env : Env} {w w' : World τ}

theorem sharesToMint_inv {st : PoolState} {nav amount shares : Int} (h : sharesToMint st nav amount = .ok shares) :
    st.totalShares = 0 ∧ shares = amount ∨
      st.totalShares ≠ 0 ∧ 0 < nav ∧ shares = (amount * st.totalShares).tdiv nav := by
  unfold sharesToMint at h
  split at h
  · exact .inl ⟨‹_›, (pure_eq_ok.mp h).symm⟩
  · obtain ⟨hnav, h⟩ := throwIf_bind_eq_ok.mp h
    obtain ⟨p, hp, h⟩ := bind_eq_ok.mp h
    exact .inr ⟨‹_›, Int.not_le.mp hnav, I128.mul_val hp ▸ I128.div_val h⟩

theorem initializePool_inv {admin operator asset share : Address}
    (h : initializePool w admin operator asset share = .ok w') :
    w.storage.initialized = false ∧ w'.storage = ⟨true, some ⟨admin, operator, asset, share, 0, 0, false⟩,
      w.storage.processedInvoice⟩ ∧ w'.tokens = w.tokens := by
  obtain ⟨hinit, h⟩ := throwIf_bind_eq_ok.mp h
  cases pure_eq_ok.mp h
  exact ⟨Bool.eq_false_iff.mpr hinit, rfl, rfl⟩

theorem deposit_inv {investor : Address} {amount : Int} (h : deposit T env w investor amount = .ok w') :
    ∃ st shares tokens, w.state? = some st ∧ st.paused = false ∧ 0 < amount ∧
      T.transfer env.callAuth w.tokens st.assetAddress investor env.currentContractAddress amount = .ok tokens ∧
      sharesToMint st (w.nav T env.currentContractAddress st) amount = .ok shares ∧
      T.mint env.callAuth tokens st.shareTokenAddress env.currentContractAddress investor shares = .ok w'.tokens ∧
      w'.storage = saveState w.storage { st with totalShares := st.totalShares + shares } := by
  obtain ⟨-, -, h⟩ := bind_eq_ok.mp h
  obtain ⟨st, hst, h⟩ := bind_eq_ok.mp h
  obtain ⟨hpaused, h⟩ := throwIf_bind_eq_ok.mp h
  obtain ⟨hamount, h⟩ := throwIf_bind_eq_ok.mp h
  obtain ⟨nav, hnav, h⟩ := bind_eq_ok.mp h
  obtain ⟨tokens, htransfer, h⟩ := bind_eq_ok.mp h
  obtain ⟨shares, hshares, h⟩ := bind_eq_ok.mp h
  obtain ⟨tokens', hmint, h⟩ := bind_eq_ok.mp h
  obtain ⟨total, htotal, h⟩ := bind_eq_ok.mp h
  obtain ⟨_, -, h⟩ := bind_eq_ok.mp h
  obtain ⟨_, -, h⟩ := bind_eq_ok.mp h
  obtain ⟨_, -, h⟩ := bind_eq_ok.mp h
  cases pure_eq_ok.mp h
  have hnav : nav = w.nav T env.currentContractAddress st := I128.add_val hnav
  refine ⟨st, shares, tokens, loadState_eq_ok.mp hst, Bool.eq_false_iff.mpr hpaused, Int.not_le.mp hamount,
    htransfer, hnav ▸ hshares, hmint, ?_⟩
  rw [I128.add_val htotal]

theorem withdraw_inv {investor : Address} {shares : Int} (h : withdraw T env w investor shares = .ok w') :
    ∃ st paid tokens, w.state? = some st ∧ st.paused = false ∧ 0 < shares ∧ shares ≤ st.totalShares ∧
      0 < w.nav T env.currentContractAddress st ∧
      paid = (shares * w.nav T env.currentContractAddress st).tdiv st.totalShares ∧
      paid ≤ w.cash T env.currentContractAddress st ∧
      T.burn env.callAuth w.tokens st.shareTokenAddress investor shares = .ok tokens ∧
      T.transfer env.callAuth tokens st.assetAddress env.currentContractAddress investor paid = .ok w'.tokens ∧
      w'.storage = saveState w.storage { st with totalShares := st.totalShares - shares } := by
  obtain ⟨-, -, h⟩ := bind_eq_ok.mp h
  obtain ⟨st, hst, h⟩ := bind_eq_ok.mp h
  obtain ⟨hpaused, h⟩ := throwIf_bind_eq_ok.mp h
  obtain ⟨hpos, h⟩ := throwIf_bind_eq_ok.mp h
  obtain ⟨hle, h⟩ := throwIf_bind_eq_ok.mp h
  obtain ⟨nav, hnav, h⟩ := bind_eq_ok.mp h
  obtain ⟨hvalid, h⟩ := throwIf_bind_eq_ok.mp h
  obtain ⟨prod, hprod, h⟩ := bind_eq_ok.mp h
  obtain ⟨paid, hpaid, h⟩ := bind_eq_ok.mp h
  obtain ⟨hcash, h⟩ := throwIf_bind_eq_ok.mp h
  obtain ⟨tokens, hburn, h⟩ := bind_eq_ok.mp h
  obtain ⟨tokens', htransfer, h⟩ := bind_eq_ok.mp h
  obtain ⟨total, htotal, h⟩ := bind_eq_ok.mp h
  cases pure_eq_ok.mp h
  have hnav : nav = w.nav T env.currentContractAddress st := I128.add_val hnav
  refine ⟨st, paid, tokens, loadState_eq_ok.mp hst, Bool.eq_false_iff.mpr hpaused, Int.not_le.mp hpos,
    Int.not_lt.mp hle, ?_, ?_, Int.not_lt.mp hcash, hburn, htransfer, ?_⟩
  · exact hnav ▸ Int.not_le.mp fun hn => hvalid (.inl hn)
  · rw [I128.div_val hpaid, I128.mul_val hprod, hnav]
  · rw [I128.sub_val htotal]

theorem buyTokenizedInvoice_inv {operator seller : Address} {hash : BytesN 32} {face advance rate : Int}
    {maturity : Nat} (h : buyTokenizedInvoice T env w operator seller hash face advance rate maturity = .ok w') :
    ∃ st, w.state? = some st ∧ st.paused = false ∧ (operator = st.operator ∨ operator = st.admin) ∧
      0 < advance ∧ advance ≤ face ∧ hash ∉ w.storage.processedInvoice ∧
      advance ≤ w.cash T env.currentContractAddress st ∧
      T.transfer env.callAuth w.tokens st.assetAddress env.currentContractAddress seller advance = .ok w'.tokens ∧
      w'.storage = saveState { w.storage with processedInvoice := w.storage.processedInvoice ++ [hash] }
        { st with totalPrincipal := st.totalPrincipal + advance } := by
  obtain ⟨-, -, h⟩ := bind_eq_ok.mp h
  obtain ⟨st, hst, h⟩ := bind_eq_ok.mp h
  obtain ⟨hpaused, h⟩ := throwIf_bind_eq_ok.mp h
  obtain ⟨_, hop, h⟩ := bind_eq_ok.mp h
  have hop := requireOperator_eq_ok.mp hop
  obtain ⟨hpos, h⟩ := throwIf_bind_eq_ok.mp h
  obtain ⟨hface, h⟩ := throwIf_bind_eq_ok.mp h
  obtain ⟨hnew, h⟩ := throwIf_bind_eq_ok.mp h
  obtain ⟨hcash, h⟩ := throwIf_bind_eq_ok.mp h
  obtain ⟨tokens, htransfer, h⟩ := bind_eq_ok.mp h
  obtain ⟨total, htotal, h⟩ := bind_eq_ok.mp h
  cases pure_eq_ok.mp h
  exact ⟨st, loadState_eq_ok.mp hst, Bool.eq_false_iff.mpr hpaused, hop, Int.not_le.mp fun hn => hpos (.inl hn),
    Int.not_lt.mp hface, hnew, Int.not_lt.mp hcash, htransfer, by rw [I128.add_val htotal]⟩

theorem settleInvoiceInPool_inv {operator : Address} {hash : BytesN 32} {principal : Int}
    (h : settleInvoiceInPool env w operator hash principal = .ok w') :
    ∃ st, w.state? = some st ∧ st.paused = false ∧ (operator = st.operator ∨ operator = st.admin) ∧
      0 < principal ∧ w'.tokens = w.tokens ∧
      w'.storage = saveState w.storage { st with
        totalPrincipal := if principal > st.totalPrincipal then 0 else st.totalPrincipal - principal } := by
  obtain ⟨-, -, h⟩ := bind_eq_ok.mp h
  obtain ⟨st, hst, h⟩ := bind_eq_ok.mp h
  obtain ⟨hpaused, h⟩ := throwIf_bind_eq_ok.mp h
  obtain ⟨_, hop, h⟩ := bind_eq_ok.mp h
  have hop := requireOperator_eq_ok.mp hop
  obtain ⟨hpos, h⟩ := throwIf_bind_eq_ok.mp h
  obtain ⟨total, htotal, h⟩ := bind_eq_ok.mp h
  cases pure_eq_ok.mp h
  have htotal : total = if principal > st.totalPrincipal then 0 else st.totalPrincipal - principal := by
    unfold principalAfter at htotal
    split at htotal
    · next hgt => rw [if_pos hgt, pure_eq_ok.mp htotal]
    · next hle => rw [if_neg hle, I128.sub_val htotal]
  exact ⟨st, loadState_eq_ok.mp hst, Bool.eq_false_iff.mpr hpaused, hop, Int.not_le.mp hpos, rfl, by rw [htotal]⟩

theorem setPaused_inv {admin : Address} {paused : Bool} {event : Nat → Event}
    (h : setPaused env w admin paused event = .ok w') :
    ∃ st, w.state? = some st ∧ admin = st.admin ∧ w'.tokens = w.tokens ∧
      w'.storage = saveState w.storage { st with paused } := by
  obtain ⟨-, -, h⟩ := bind_eq_ok.mp h
  obtain ⟨st, hst, h⟩ := bind_eq_ok.mp h
  obtain ⟨hadmin, h⟩ := throwIf_bind_eq_ok.mp h
  cases pure_eq_ok.mp h
  exact ⟨st, loadState_eq_ok.mp hst, Decidable.not_not.mp hadmin, rfl, rfl⟩

theorem setOperator_inv {admin operator : Address} (h : setOperator env w admin operator = .ok w') :
    ∃ st, w.state? = some st ∧ admin = st.admin ∧ w'.tokens = w.tokens ∧
      w'.storage = saveState w.storage { st with operator } := by
  obtain ⟨-, -, h⟩ := bind_eq_ok.mp h
  obtain ⟨st, hst, h⟩ := bind_eq_ok.mp h
  obtain ⟨hadmin, h⟩ := throwIf_bind_eq_ok.mp h
  cases pure_eq_ok.mp h
  exact ⟨st, loadState_eq_ok.mp hst, Decidable.not_not.mp hadmin, rfl, rfl⟩

theorem getNav_inv {nav : Int} (h : getNav T env w = .ok nav) :
    ∃ st, w.state? = some st ∧ nav = w.nav T env.currentContractAddress st := by
  obtain ⟨st, hst, h⟩ := bind_eq_ok.mp h
  exact ⟨st, loadState_eq_ok.mp hst, I128.add_val h⟩

theorem getSharePrice_inv {price : Int} (h : getSharePrice T env w = .ok price) :
    ∃ st, w.state? = some st ∧ (st.totalShares = 0 ∧ price = priceScale ∨
      st.totalShares ≠ 0 ∧ price = (w.nav T env.currentContractAddress st * priceScale).tdiv st.totalShares) := by
  obtain ⟨st, hst, h⟩ := bind_eq_ok.mp h
  have hst : w.state? = some st := loadState_eq_ok.mp hst
  refine ⟨st, hst, ?_⟩
  split at h
  · exact .inl ⟨‹_›, (pure_eq_ok.mp h).symm⟩
  · obtain ⟨nav, hnav, h⟩ := bind_eq_ok.mp h
    obtain ⟨prod, hprod, h⟩ := bind_eq_ok.mp h
    obtain ⟨st', hst', hnav⟩ := getNav_inv hnav
    rw [hst] at hst'
    cases hst'
    exact .inr ⟨‹_›, by rw [I128.div_val h, I128.mul_val hprod, hnav]⟩

end Inversion

/-! ### The accounts after a call -/

section Accounts
variable {τ : Type} {T : TokenContracts τ} {env : Env} {w w' : World τ}

theorem deposit_accounts (hT : T.Exact) {investor : Address} {amount : Int}
    (hself : investor ≠ env.currentContractAddress) (h : deposit T env w investor amount = .ok w') :
    ∃ st shares, w.state? = some st ∧ 0 < amount ∧
      sharesToMint st (w.nav T env.currentContractAddress st) amount = .ok shares ∧
      w'.state? = some { st with totalShares := st.totalShares + shares } ∧
      w'.storage.processedInvoice = w.storage.processedInvoice ∧
      T.balance w'.tokens st.assetAddress env.currentContractAddress =
        w.cash T env.currentContractAddress st + amount := by
  obtain ⟨st, shares, tokens, hst, -, hamount, htransfer, hshares, hmint, hstorage⟩ := deposit_inv h
  refine ⟨st, shares, hst, hamount, hshares, state?_saveState hst hstorage rfl, by rw [hstorage]; rfl, ?_⟩
  rw [hT.mint hmint, hT.transfer htransfer, moved_self, moved_of_ne (Ne.symm hself), moved_of_ne (Ne.symm hself),
    Int.sub_zero, Int.add_zero]
  rfl

theorem withdraw_accounts (hT : T.Exact) {investor : Address} {shares : Int}
    (hself : investor ≠ env.currentContractAddress) (h : withdraw T env w investor shares = .ok w') :
    ∃ st, w.state? = some st ∧ 0 < shares ∧ shares ≤ st.totalShares ∧
      0 < w.nav T env.currentContractAddress st ∧
      w'.state? = some { st with totalShares := st.totalShares - shares } ∧
      w'.storage.processedInvoice = w.storage.processedInvoice ∧
      T.balance w'.tokens st.assetAddress env.currentContractAddress = w.cash T env.currentContractAddress st -
        shares * w.nav T env.currentContractAddress st / st.totalShares := by
  obtain ⟨st, paid, tokens, hst, -, hpos, hle, hnav, hpaid, -, hburn, htransfer, hstorage⟩ := withdraw_inv h
  refine ⟨st, hst, hpos, hle, hnav, state?_saveState hst hstorage rfl, by rw [hstorage]; rfl, ?_⟩
  rw [hT.transfer htransfer, hT.burn hburn, moved_self, moved_of_ne (Ne.symm hself), moved_of_ne (Ne.symm hself),
    Int.sub_zero, Int.add_zero, hpaid, Int.tdiv_eq_ediv_of_nonneg (Int.mul_nonneg (Int.le_of_lt hpos) (Int.le_of_lt hnav))]
  rfl

/-- A purchase turns cash into principal; when the pool sells to itself, its cash stays. -/
theorem buyTokenizedInvoice_accounts (hT : T.Exact) {operator seller : Address} {hash : BytesN 32}
    {face advance rate : Int} {maturity : Nat}
    (h : buyTokenizedInvoice T env w operator seller hash face advance rate maturity = .ok w') :
    ∃ st, w.state? = some st ∧ 0 < advance ∧ hash ∉ w.storage.processedInvoice ∧
      w'.state? = some { st with totalPrincipal := st.totalPrincipal + advance } ∧
      w'.storage.processedInvoice = w.storage.processedInvoice ++ [hash] ∧
      w.cash T env.currentContractAddress st - advance ≤
        T.balance w'.tokens st.assetAddress env.currentContractAddress := by
  obtain ⟨st, hst, -, -, hpos, -, hnew, -, htransfer, hstorage⟩ := buyTokenizedInvoice_inv h
  refine ⟨st, hst, hpos, hnew, state?_saveState hst hstorage rfl, by rw [hstorage]; rfl, ?_⟩
  have hmoved : 0 ≤ moved st.assetAddress seller advance st.assetAddress env.currentContractAddress :=
    moved_nonneg (Int.le_of_lt hpos)
  rw [hT.transfer htransfer, moved_self]
  unfold World.cash
  omega

end Accounts

end CredBridge.Contracts.LiquidityPool
