import CredBridge.Api.Investments
import CredBridge.Lib.Journal

/-! # A receivable is charged for once

What a purchase read may be out of date when it commits, and what it checked of the authorization when it consumes; the
unique investment of the receivable and the condition of the update decide. So at most one call gets past the
reservation of a receivable, and only a call that has consumed an authorization for its investment charges. -/

namespace CredBridge.Api
open Concurrent Machine Result

/-- The investment as its purchase reserved it. -/
def Investment.reservation (i : Investment) : Investment := { i with paymentTxHash := none, nftTransferTxHash := none }

def PurchaseEvent.chargesFor (receivableId : String) : PurchaseEvent → Bool
  | .charged investment _ => investment.receivableId = receivableId
  | _ => false

section Property
variable (env : PurchaseEnv)

/-- What goes before an event: the transaction read an active receivable that is not the buyer's; an authorization is
    consumed for the buyer, the receivable and the amount of a reservation, and a charge follows both. -/
def PurchaseJustified (earlier : List PurchaseEvent) : PurchaseEvent → Prop
  | .reserved investment receivable =>
    receivable.status = .active ∧ receivable.userId ≠ investment.investorUserId ∧
      investment.receivableId = receivable.id ∧ investment.amountPaid = amountPaid env receivable.value
  | .consumed investment input =>
    (∃ receivable, .reserved investment receivable ∈ earlier) ∧
      ∃ authorizationId, input = investmentConsumption env investment authorizationId
  | .charged investment _ =>
    (∃ receivable, .reserved investment receivable ∈ earlier) ∧ ∃ input, .consumed investment input ∈ earlier

structure OneCharge (s : PurchaseState) : Prop where
  investments : ∀ receivableId, s.investments.countP (·.receivableId = receivableId) ≤ 1
  charges : ∀ receivableId, s.journal.countP (·.chargesFor receivableId) ≤ 1
  journal : Journal.Sound (PurchaseJustified env) s.journal
  authorized : ∀ investment input, .consumed investment input ∈ s.journal →
    ∃ now, .consumed input now ∈ s.authorizations.journal

/-! ### What the state and the calls know -/

def Reserved (s : PurchaseState) (investment : Investment) : Prop :=
  investment ∈ s.investments.map Investment.reservation ∧ ∃ receivable, .reserved investment receivable ∈ s.journal

def Authorized (s : PurchaseState) (investment : Investment) : Prop :=
  ∃ authorizationId, .consumed investment (investmentConsumption env investment authorizationId) ∈ s.journal

/-- The hashes are written, the authorization was consumed and the charge landed. -/
def Complete (s : PurchaseState) (i : Investment) : Prop :=
  i.paymentTxHash.isSome ∧ i.nftTransferTxHash.isSome ∧ Authorized env s i.reservation ∧
    .charged i.reservation true ∈ s.journal

structure PurchaseState.Sound (receivables : List Receivable) (s : PurchaseState) : Prop where
  receivables : ∀ id, Table.find Receivable.id id s.receivables = Table.find Receivable.id id receivables
  ids : Table.Keyed Investment.id s.investments
  receivableIds : Table.Keyed Investment.receivableId s.investments
  journal : Journal.Sound (PurchaseJustified env) s.journal
  authorized : ∀ investment input, .consumed investment input ∈ s.journal →
    ∃ now, .consumed input now ∈ s.authorizations.journal
  complete : ∀ i ∈ s.investments, i.nftTransferTxHash.isSome → Complete env s i

def PurchaseCall.Sound (receivables : List Receivable) (s : PurchaseState) : PurchaseCall → Prop
  | .reserve investorUserId _ receivable =>
    Table.find Receivable.id receivable.id receivables = some receivable ∧ receivable.status = .active ∧
      receivable.userId ≠ investorUserId
  | .authorize _ investment => Reserved s investment
  | .consume input investment =>
    Reserved s investment ∧ ∃ authorizationId, input = investmentConsumption env investment authorizationId
  | .charge investment => Reserved s investment ∧ Authorized env s investment
  | .transferNft investment _ | .setHashes investment _ _ =>
    Reserved s investment ∧ Authorized env s investment ∧ .charged investment true ∈ s.journal

/-- Reservations and events stay. -/
def PurchaseGrows (s s' : PurchaseState) : Prop :=
  s.investments.map Investment.reservation ⊆ s'.investments.map Investment.reservation ∧ s.journal ⊆ s'.journal

/-- The state after a step is sound, nothing is lost, and the call that waits is sound. -/
def PurchaseStep (receivables : List Receivable) (s : PurchaseState) (r : PurchaseState × Option PurchaseCall) : Prop :=
  r.1.Sound env receivables ∧ PurchaseGrows s r.1 ∧ ∀ f ∈ r.2, f.Sound env receivables r.1

end Property

section Steps
variable {env : PurchaseEnv} {receivables : List Receivable} {s s' : PurchaseState} {investment i : Investment}
  {call : PurchaseCall} {next : Option PurchaseCall}

theorem PurchaseGrows.refl : PurchaseGrows s s := ⟨List.Subset.refl _, List.Subset.refl _⟩

theorem Reserved.grows (h : Reserved s investment) (hs : PurchaseGrows s s') : Reserved s' investment := by
  obtain ⟨hrow, receivable, hevent⟩ := h
  exact ⟨hs.1 hrow, receivable, hs.2 hevent⟩

theorem Authorized.grows (h : Authorized env s investment) (hs : PurchaseGrows s s') : Authorized env s' investment := by
  obtain ⟨authorizationId, hevent⟩ := h
  exact ⟨authorizationId, hs.2 hevent⟩

theorem Complete.grows (h : Complete env s i) (hs : PurchaseGrows s s') : Complete env s' i := by
  obtain ⟨hpayment, htransfer, hauthorized, hcharged⟩ := h
  exact ⟨hpayment, htransfer, hauthorized.grows hs, hs.2 hcharged⟩

theorem PurchaseCall.Sound.grows (h : call.Sound env receivables s) (hs : PurchaseGrows s s') :
    call.Sound env receivables s' := by
  cases call with
  | reserve investorUserId dto receivable => exact h
  | authorize authorizationId investment => exact Reserved.grows h hs
  | consume input investment => exact ⟨h.1.grows hs, h.2⟩
  | charge investment => exact ⟨h.1.grows hs, h.2.grows hs⟩
  | transferNft | setHashes => exact ⟨h.1.grows hs, h.2.1.grows hs, hs.2 h.2.2⟩

theorem Reserved.row (h : Reserved s investment) (hs : s.Sound env receivables) {i : Investment} (hi : i ∈ s.investments)
    (hid : i.id = investment.id) : i.reservation = investment := by
  obtain ⟨i', hi', rfl⟩ := List.mem_map.mp h.1
  rw [hs.ids.eq_of_key hi hi' hid]

theorem PurchaseStep.waits (hs : s.Sound env receivables) (hnext : ∀ f ∈ next, f.Sound env receivables s) :
    PurchaseStep env receivables s (s, next) := ⟨hs, .refl, hnext⟩

theorem PurchaseStep.ended (hs : s.Sound env receivables) : PurchaseStep env receivables s (s, none) :=
  .waits hs fun f hf => absurd hf (Option.not_mem_none f)

/-- An event that is justified is added; the rows stay, and so does what is known of them. -/
theorem PurchaseStep.event {e : PurchaseEvent} {authorizations : AuthorizationStore} {payments : List Payment}
    (hs : s.Sound env receivables) (he : PurchaseJustified env s.journal e)
    (hauthorizations : s.authorizations.journal ⊆ authorizations.journal)
    (hauthorized : ∀ investment input, e = .consumed investment input → ∃ now, .consumed input now ∈ authorizations.journal)
    (hnext : ∀ s', PurchaseGrows s s' → e ∈ s'.journal → ∀ f ∈ next, f.Sound env receivables s') :
    PurchaseStep env receivables s
      ({ s with authorizations := authorizations, payments := payments, journal := e :: s.journal }, next) := by
  have hgrows : PurchaseGrows s
      { s with authorizations := authorizations, payments := payments, journal := e :: s.journal } :=
    ⟨List.Subset.refl _, List.subset_cons_self e s.journal⟩
  refine ⟨?_, hgrows, hnext _ hgrows List.mem_cons_self⟩
  exact { hs with
    journal := hs.journal.cons he
    authorized := fun investment input hevent => by
      rcases List.mem_cons.mp hevent with rfl | hold
      · exact hauthorized investment input rfl
      · obtain ⟨now, hnow⟩ := hs.authorized investment input hold
        exact ⟨now, hauthorizations hnow⟩
    complete := fun i hi htransfer => (hs.complete i hi htransfer).grows hgrows }

theorem apply_journal {runtime : Runtime} {w : AuthorizationWrite} {drawn : Drawn} {a : AuthorizationStore} :
    a.journal ⊆ (w.apply runtime drawn a).journal := by
  cases w with
  | create payload expiresAt =>
    simp only [AuthorizationWrite.apply, AuthorizationStore.create]
    split
    · exact List.Subset.refl _
    · exact List.subset_cons_self _ _
  | setVerified id assertion signature =>
    simp only [AuthorizationWrite.apply, AuthorizationStore.setVerified]
    split
    · exact List.Subset.refl _
    · exact List.subset_cons_self _ _
  | setConsumed input =>
    simp only [AuthorizationWrite.apply, AuthorizationStore.setConsumed]
    split
    · exact List.Subset.refl _
    · exact List.subset_cons_self _ _

theorem Consumes.journal {a : AuthorizationStore} {input : FinancialAuthorizationConsumption} {now : Int}
    (h : a.Consumes input now) : (a.setConsumed input now).journal = .consumed input now :: a.journal := by
  obtain ⟨r, hr⟩ := Option.isSome_iff_exists.mp h
  unfold AuthorizationStore.setConsumed
  rw [hr]

theorem checkPurchase_inv {investorUserId : String} {dto : CreateInvestmentDto} {receivable : Receivable}
    (h : checkPurchase s investorUserId dto = .ok receivable) :
    Table.find Receivable.id receivable.id s.receivables = some receivable ∧ receivable.status = .active ∧
      receivable.userId ≠ investorUserId := by
  obtain ⟨r, hr, h⟩ := orThrow_bind_eq_ok.mp h
  obtain ⟨-, h⟩ := throwIf_bind_eq_ok.mp h
  obtain ⟨hactive, h⟩ := throwIf_bind_eq_ok.mp h
  obtain ⟨hbuyer, h⟩ := throwIf_bind_eq_ok.mp h
  obtain rfl := pure_eq_ok.mp h
  exact ⟨by rw [Table.key_of_find hr]; exact hr, Decidable.not_not.mp hactive, hbuyer⟩

theorem reserve_inv {receivable : Receivable} (h : reserve investment receivable s = .ok s') :
    (∀ i ∈ s.investments, i.id ≠ investment.id ∧ i.receivableId ≠ investment.receivableId) ∧
      s' = { s with
        receivables := setReceivableActive s.receivables receivable.id
        investments := s.investments ++ [investment]
        journal := .reserved investment receivable :: s.journal } := by
  obtain ⟨hfree, h⟩ := throwIf_bind_eq_ok.mp h
  refine ⟨fun i hi => not_or.mp fun htaken => hfree ?_, (pure_eq_ok.mp h).symm⟩
  exact List.any_eq_true.mpr ⟨i, hi, decide_eq_true htaken⟩

theorem find_setReceivableActive {receivable : Receivable} {rows : List Receivable} (hactive : receivable.status = .active)
    (hfind : Table.find Receivable.id receivable.id rows = some receivable) (id : String) :
    Table.find Receivable.id id (setReceivableActive rows receivable.id) = Table.find Receivable.id id rows := by
  have hmodify : Table.find Receivable.id id (setReceivableActive rows receivable.id) =
      (Table.find Receivable.id id rows).map fun r => if r.id = receivable.id then { r with status := .active } else r :=
    Table.find_modify fun _ h => h
  rw [hmodify]
  cases h : Table.find Receivable.id id rows with
  | none => rfl
  | some r =>
    obtain rfl : r.id = id := Table.key_of_find h
    by_cases hid : r.id = receivable.id
    · obtain rfl : r = receivable := Option.some.inj ((hid ▸ h).symm.trans hfind)
      simp [← hactive]
    · simp [hid]

theorem reserve_sound {investorUserId : String} {dto : CreateInvestmentDto} {receivable : Receivable} {id : String}
    (hs : s.Sound env receivables)
    (hcall : (PurchaseCall.reserve investorUserId dto receivable).Sound env receivables s)
    (h : reserve (newInvestment env investorUserId dto receivable id) receivable s = .ok s') :
    PurchaseStep env receivables s
      (s', some (.authorize dto.authorizationId (newInvestment env investorUserId dto receivable id))) := by
  obtain ⟨hfind, hactive, hbuyer⟩ := hcall
  obtain ⟨hfree, rfl⟩ := reserve_inv h
  generalize hinvestment : newInvestment env investorUserId dto receivable id = investment at hfree
  have hnew : PurchaseJustified env s.journal (.reserved investment receivable) := by
    rw [← hinvestment]
    exact ⟨hactive, hbuyer, rfl, rfl⟩
  have hgrows : PurchaseGrows s { s with
      receivables := setReceivableActive s.receivables receivable.id
      investments := s.investments ++ [investment]
      journal := .reserved investment receivable :: s.journal } :=
    ⟨by rw [List.map_append]; exact List.subset_append_left _ _, List.subset_cons_self _ _⟩
  have hreservation : investment.reservation = investment := by
    rw [← hinvestment]
    rfl
  refine ⟨⟨fun id => ?_, hs.ids.append ?_, hs.receivableIds.append ?_, hs.journal.cons hnew, ?_, ?_⟩, hgrows, ?_⟩
  · rw [find_setReceivableActive hactive ((hs.receivables receivable.id).trans hfind)]
    exact hs.receivables id
  · intro hmem
    obtain ⟨i, hi, hid⟩ := List.mem_map.mp hmem
    exact (hfree i hi).1 hid
  · intro hmem
    obtain ⟨i, hi, hid⟩ := List.mem_map.mp hmem
    exact (hfree i hi).2 hid
  · intro investment' input hevent
    rcases List.mem_cons.mp hevent with heq | hold
    · cases heq
    · exact hs.authorized investment' input hold
  · intro i hi htransfer
    rcases List.mem_append.mp hi with hold | hnew
    · exact (hs.complete i hold htransfer).grows hgrows
    · rw [List.mem_singleton.mp hnew, ← hinvestment] at htransfer
      cases htransfer
  · intro f hf
    cases hf
    refine ⟨?_, receivable, List.mem_cons_self⟩
    exact List.mem_map.mpr ⟨investment, List.mem_append_right _ List.mem_cons_self, hreservation⟩

/-- The hashes of an investment are no part of what `g` reads. -/
theorem map_setBlockchainTxHashes {β : Type} {g : Investment → β} {id paymentTxHash nftTransferTxHash : String}
    (hg : ∀ (i : Investment) (paymentTxHash nftTransferTxHash : Option String),
      g { i with paymentTxHash := paymentTxHash, nftTransferTxHash := nftTransferTxHash } = g i) :
    (setBlockchainTxHashes s id paymentTxHash nftTransferTxHash).investments.map g = s.investments.map g := by
  unfold setBlockchainTxHashes Table.modify
  rw [List.map_map]
  refine List.map_congr_left fun i _ => ?_
  simp only [Function.comp]
  split
  · exact hg i _ _
  · rfl

theorem setHashes_sound {paymentTxHash nftTransferTxHash : String} (hs : s.Sound env receivables)
    (hcall : (PurchaseCall.setHashes investment paymentTxHash nftTransferTxHash).Sound env receivables s) :
    PurchaseStep env receivables s (setBlockchainTxHashes s investment.id paymentTxHash nftTransferTxHash, none) := by
  obtain ⟨hreserved, hauthorized, hcharged⟩ := hcall
  have hgrows : PurchaseGrows s (setBlockchainTxHashes s investment.id paymentTxHash nftTransferTxHash) :=
    ⟨by rw [map_setBlockchainTxHashes fun _ _ _ => rfl]; exact List.Subset.refl _, List.Subset.refl _⟩
  refine ⟨⟨hs.receivables, hs.ids.modify fun _ h => h, ?_, hs.journal, hs.authorized, fun i hi htransfer => ?_⟩, hgrows,
    fun f hf => absurd hf (Option.not_mem_none f)⟩
  · unfold Table.Keyed
    rw [map_setBlockchainTxHashes fun _ _ _ => rfl]
    exact hs.receivableIds
  · obtain ⟨i', hi', rfl⟩ := Table.mem_modify.mp hi
    by_cases hid : i'.id = investment.id
    · rw [if_pos hid]
      obtain rfl := hreserved.row hs hi' hid
      exact ⟨rfl, rfl, hauthorized.grows hgrows, hcharged⟩
    · rw [if_neg hid] at htransfer ⊢
      exact (hs.complete i' hi' htransfer).grows hgrows

theorem consume_sound {input : FinancialAuthorizationConsumption} {now : Int} {audited : Bool}
    (hs : s.Sound env receivables) (hcall : (PurchaseCall.consume input investment).Sound env receivables s)
    (hconsumes : s.authorizations.Consumes input now) :
    PurchaseStep env receivables s
      ({ s with
          authorizations := s.authorizations.setConsumed input now
          journal := .consumed investment input :: s.journal },
        if audited then some (.charge investment) else none) := by
  obtain ⟨hreserved, authorizationId, rfl⟩ := hcall
  have hjournal := Consumes.journal hconsumes
  refine .event hs ⟨hreserved.2, authorizationId, rfl⟩ ?_ ?_ fun s' hgrows hevent f hf => ?_
  · rw [hjournal]
    exact List.subset_cons_self _ _
  · rintro _ _ ⟨⟩
    exact ⟨now, by rw [hjournal]; exact List.mem_cons_self⟩
  · split at hf
    · cases hf
      exact ⟨hreserved.grows hgrows, authorizationId, hevent⟩
    · cases hf

theorem charge_sound {payments : List Payment} {landed : Bool} (hs : s.Sound env receivables)
    (hcall : (PurchaseCall.charge investment).Sound env receivables s)
    (hnext : ∀ f ∈ next, landed = true ∧ ∃ paymentTxHash, f = .transferNft investment paymentTxHash) :
    PurchaseStep env receivables s
      ({ s with payments := payments, journal := .charged investment landed :: s.journal }, next) := by
  obtain ⟨hreserved, authorizationId, hconsumed⟩ := hcall
  refine .event hs ⟨hreserved.2, _, hconsumed⟩ (List.Subset.refl _) (fun _ _ h => nomatch h) fun s' hgrows hevent f hf => ?_
  obtain ⟨hlanded, paymentTxHash, rfl⟩ := hnext f hf
  rw [hlanded] at hevent
  exact ⟨hreserved.grows hgrows, ⟨authorizationId, hgrows.2 hconsumed⟩, hevent⟩

/-- A token that is transferred is no row and no event. -/
theorem transferNft_sound {nftTransfers : List NftTransfer} {paymentTxHash : String} (hs : s.Sound env receivables)
    (hcall : (PurchaseCall.transferNft investment paymentTxHash).Sound env receivables s)
    (hnext : ∀ f ∈ next, ∃ nftTransferTxHash, f = .setHashes investment paymentTxHash nftTransferTxHash) :
    PurchaseStep env receivables s ({ s with nftTransfers := nftTransfers }, next) := by
  refine ⟨{ hs with }, ⟨List.Subset.refl _, List.Subset.refl _⟩, fun f hf => ?_⟩
  obtain ⟨nftTransferTxHash, rfl⟩ := hnext f hf
  exact hcall

end Steps

section Calls
variable {env : PurchaseEnv} {users : String → Option CustodialUser} {runtime : Runtime} {receivables : List Receivable}
  {s : PurchaseState}

theorem startPurchase_sound (hs : s.Sound env receivables) (request : PurchaseRequest) :
    PurchaseStep env receivables s (startPurchase runtime request s) := by
  cases request with
  | create investorUserId dto =>
    refine .waits hs fun f hf => ?_
    obtain ⟨receivable, hcheck, rfl⟩ := Option.map_eq_some_iff.mp hf
    obtain ⟨hfind, hactive, hbuyer⟩ := checkPurchase_inv (toOption_eq_some.mp hcheck)
    exact ⟨(hs.receivables receivable.id).symm.trans hfind, hactive, hbuyer⟩
  | authorization w drawn =>
    refine ⟨{ hs with authorized := fun investment input hevent => ?_ }, .refl, fun f hf => absurd hf (Option.not_mem_none f)⟩
    obtain ⟨now, hnow⟩ := hs.authorized investment input hevent
    exact ⟨now, apply_journal hnow⟩

theorem resumePurchase_sound {call : PurchaseCall} (hs : s.Sound env receivables) (hcall : call.Sound env receivables s)
    (reply : PurchaseReply) : PurchaseStep env receivables s (resumePurchase env users call reply s) := by
  have hresumed := resumePurchase_resumed env users call reply s
  generalize resumePurchase env users call reply s = r at hresumed ⊢
  cases hresumed with
  | reserved hreserve hcommitted hr =>
    subst hr
    exact reserve_sound hs hcall hreserve
  | authorized hr =>
    subst hr
    refine .waits hs fun f hf => ?_
    cases hf
    exact ⟨hcall, _, rfl⟩
  | consumed hconsumes hr =>
    subst hr
    exact consume_sound hs hcall hconsumes
  | charged hnext hr =>
    subst hr
    exact charge_sound hs hcall hnext
  | transferred hnext hr =>
    subst hr
    exact transferNft_sound hs hcall hnext
  | hashed hr =>
    subst hr
    exact setHashes_sound hs hcall
  | failed hr =>
    subst hr
    exact .ended hs

theorem purchases_outline (env : PurchaseEnv) (users : String → Option CustodialUser) (runtime : Runtime)
    (receivables : List Receivable) :
    Outline (purchases env users runtime) (fun _ _ => True) (fun _ _ _ => True) (PurchaseState.Sound env receivables)
      (PurchaseCall.Sound env receivables) PurchaseGrows where
  start request _ hs _ := startPurchase_sound hs request
  resume _ reply _ hs hcall _ := resumePurchase_sound hs hcall reply
  stable _ _ _ hs hcall := hcall.grows hs

end Calls

/-! ### A charge is reserved -/

/-- The charges for a receivable, and one more while no investment has reserved it. -/
def PurchaseState.chargeSlots (receivableId : String) (s : PurchaseState) : Nat :=
  s.journal.countP (·.chargesFor receivableId) + (1 - s.investments.countP (·.receivableId = receivableId))

/-- The call is still to charge for the receivable. -/
def PurchaseCall.toCharge (receivableId : String) : PurchaseCall → Nat
  | .authorize _ investment | .consume _ investment | .charge investment =>
    if investment.receivableId = receivableId then 1 else 0
  | _ => 0

section Slots
variable {env : PurchaseEnv} {users : String → Option CustodialUser} {runtime : Runtime} {receivables : List Receivable}
  {s s' : PurchaseState} {c c' : Config PurchaseState PurchaseCall} {op : Op PurchaseRequest PurchaseReply}

/-- The slot of a receivable passes from the table to the call that reserves it. -/
theorem reserve_slots {investment : Investment} {receivable : Receivable} (authorizationId receivableId : String)
    (h : reserve investment receivable s = .ok s') :
    s'.chargeSlots receivableId + (PurchaseCall.authorize authorizationId investment).toCharge receivableId =
      s.chargeSlots receivableId := by
  obtain ⟨hfree, rfl⟩ := reserve_inv h
  by_cases hid : investment.receivableId = receivableId
  · have hnone : s.investments.countP (·.receivableId = receivableId) = 0 :=
      List.countP_eq_zero.mpr fun i hi => by simpa [hid] using (hfree i hi).2
    simp [PurchaseState.chargeSlots, PurchaseCall.toCharge, PurchaseEvent.chargesFor, List.countP_append, hid, hnone]
  · simp [PurchaseState.chargeSlots, PurchaseCall.toCharge, PurchaseEvent.chargesFor, List.countP_append, hid]

theorem charge_slots {investment : Investment} {payments : List Payment} {landed : Bool} {receivableId : String} :
    PurchaseState.chargeSlots receivableId
        { s with payments := payments, journal := .charged investment landed :: s.journal } =
      s.chargeSlots receivableId + (PurchaseCall.charge investment).toCharge receivableId := by
  simp only [PurchaseState.chargeSlots, PurchaseCall.toCharge, List.countP_cons, PurchaseEvent.chargesFor,
    decide_eq_true_eq]
  omega

theorem setHashes_slots {id paymentTxHash nftTransferTxHash receivableId : String} :
    (setBlockchainTxHashes s id paymentTxHash nftTransferTxHash).chargeSlots receivableId = s.chargeSlots receivableId := by
  have hcount : ∀ rows : List Investment, rows.countP (·.receivableId = receivableId) =
      (rows.map Investment.receivableId).countP (· = receivableId) := fun rows => by
    rw [List.countP_map]
    rfl
  unfold PurchaseState.chargeSlots
  rw [hcount, hcount, map_setBlockchainTxHashes fun _ _ _ => rfl]
  rfl

theorem resumePurchase_slots (call : PurchaseCall) (reply : PurchaseReply) (receivableId : String) :
    (resumePurchase env users call reply s).1.chargeSlots receivableId +
        weight (PurchaseCall.toCharge receivableId) (resumePurchase env users call reply s).2 ≤
      s.chargeSlots receivableId + call.toCharge receivableId := by
  have hresumed := resumePurchase_resumed env users call reply s
  generalize resumePurchase env users call reply s = r at hresumed ⊢
  cases hresumed with
  | @reserved investorUserId dto receivable s' hreserve hcommitted hr =>
    subst hr
    exact Nat.le_of_eq (reserve_slots dto.authorizationId receivableId hreserve)
  | authorized hr =>
    subst hr
    exact Nat.le_refl _
  | consumed hconsumes hr =>
    subst hr
    cases reply.audited with
    | false => exact Nat.le_add_right _ _
    | true => exact Nat.le_refl _
  | charged hnext hr =>
    subst hr
    have hweight : weight (PurchaseCall.toCharge receivableId) _ = 0 := weight_eq_zero fun call hcall => by
      obtain ⟨-, txHash, rfl⟩ := hnext call hcall
      rfl
    exact Nat.le_of_eq ((congrArg _ hweight).trans charge_slots)
  | transferred hnext hr =>
    subst hr
    have hweight : weight (PurchaseCall.toCharge receivableId) _ = 0 := weight_eq_zero fun call hcall => by
      obtain ⟨txHash, rfl⟩ := hnext call hcall
      rfl
    exact Nat.le_of_eq (congrArg _ hweight)
  | hashed hr =>
    subst hr
    exact Nat.le_of_eq setHashes_slots
  | failed hr =>
    subst hr
    exact Nat.le_add_right _ _

theorem startPurchase_slots (request : PurchaseRequest) (receivableId : String) :
    (startPurchase runtime request s).1.chargeSlots receivableId +
        weight (PurchaseCall.toCharge receivableId) (startPurchase runtime request s).2 =
      s.chargeSlots receivableId := by
  cases request with
  | create investorUserId dto =>
    simp only [startPurchase]
    cases checkPurchase s investorUserId dto <;> rfl
  | authorization w drawn => rfl

/-- No step makes a slot of a receivable. -/
theorem chargeSlots_step (hstep : (purchases env users runtime).step c op = .ok c') (receivableId : String) :
    c'.potential (PurchaseState.chargeSlots receivableId) (PurchaseCall.toCharge receivableId) ≤
      c.potential (PurchaseState.chargeSlots receivableId) (PurchaseCall.toCharge receivableId) := by
  cases step_moved hstep with
  | start request hop hc' =>
    subst hop hc'
    exact potential_start_le (n := 0) (Nat.le_of_eq (startPurchase_slots request receivableId))
  | resume i reply f rest hop hf hperm hc' =>
    subst hop hc'
    exact potential_resume_le (n := 0) hperm (resumePurchase_slots f reply receivableId)
  | crash i f rest hop hperm hc' =>
    subst hc'
    exact potential_crash_le hperm

end Slots

theorem PurchaseState.Sound.oneCharge {env : PurchaseEnv} {receivables : List Receivable}
    {c : Config PurchaseState PurchaseCall} (hs : c.shared.Sound env receivables)
    (hslots : ∀ receivableId,
      c.potential (PurchaseState.chargeSlots receivableId) (PurchaseCall.toCharge receivableId) ≤ 1) :
    OneCharge env c.shared where
  investments _ := hs.receivableIds.countP_le_one
  charges receivableId := by
    have hle := hslots receivableId
    rw [Config.potential, PurchaseState.chargeSlots] at hle
    omega
  journal := hs.journal
  authorized := hs.authorized

/-- What `purchases` starts from: no one has bought anything. -/
def PurchaseState.initial (receivables : List Receivable) (authorizations : AuthorizationStore) : PurchaseState :=
  ⟨receivables, [], authorizations, [], [], []⟩

theorem PurchaseState.Sound.initial (env : PurchaseEnv) (receivables : List Receivable) (authorizations : AuthorizationStore) :
    (PurchaseState.initial receivables authorizations).Sound env receivables where
  receivables _ := rfl
  ids := .nil
  receivableIds := .nil
  journal := trivial
  authorized _ _ h := absurd h List.not_mem_nil
  complete := List.forall_mem_nil _

/-- In every state of every run of purchases, each receivable has at most one investment and was charged for once at most,
    by a call that had read it as active and another's, and that had consumed an authorization for its buyer, receivable
    and amount. -/
theorem receivable_charged_once (env : PurchaseEnv) (users : String → Option CustodialUser) (runtime : Runtime)
    (receivables : List Receivable) (authorizations : AuthorizationStore) (ops : List (Op PurchaseRequest PurchaseReply)) :
    Throughout (purchases env users runtime).step (fun c => OneCharge env c.shared)
      ⟨.initial receivables authorizations, []⟩ ops := by
  have hinv : Throughout (purchases env users runtime).step
      (fun c => Holds (PurchaseState.Sound env receivables) (PurchaseCall.Sound env receivables) c ∧
        ∀ receivableId, c.potential (PurchaseState.chargeSlots receivableId) (PurchaseCall.toCharge receivableId) ≤ 1)
      ⟨.initial receivables authorizations, []⟩ ops := by
    refine throughout_of_step (fun c op c' hc hstep => ⟨?_, fun receivableId => ?_⟩) ⟨⟨?_, ?_⟩, fun _ => Nat.le_refl 1⟩ ops
    · exact (purchases_outline env users runtime receivables).step hc.1
        (allows_all (fun _ _ => trivial) (fun _ _ _ => trivial) c op) hstep
    · exact Nat.le_trans (chargeSlots_step hstep receivableId) (hc.2 receivableId)
    · exact .initial env receivables authorizations
    · exact List.forall_mem_nil _
  exact hinv.mono fun c hc => hc.1.1.oneCharge hc.2

end CredBridge.Api
