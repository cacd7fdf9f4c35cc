import CredBridge.Theorems.OneCharge

/-! # A purchase that fails leaves its reservation behind

The investment is committed before the authorization is consumed, the investor charged and the token transferred, and a
call that fails at one of these steps does not take it back: the receivable stays reserved and cannot be bought again.
Each investment has one slot, which is in the table while nobody has it, with the call while that goes on, and in the
table again once the hashes are written; a call that fails or is lost after the commit takes the slot with it. -/

namespace CredBridge.Api
open Concurrent Machine Result

def PurchaseCall.investment : PurchaseCall → Option Investment
  | .reserve _ _ _ => none
  | .authorize _ investment | .consume _ investment | .charge investment | .transferNft investment _
  | .setHashes investment _ _ => some investment

section Property
variable (env : PurchaseEnv) (users : String → Option CustodialUser)

/-- No receivable has changed, and each investment is of a purchase that still goes on, or its purchase has returned it
    with both hashes after its authorization was consumed and the charge landed. -/
def AllOrNothing (receivables : List Receivable) (c : Config PurchaseState PurchaseCall) : Prop :=
  (∀ id, Table.find Receivable.id id c.shared.receivables = Table.find Receivable.id id receivables) ∧
    ∀ i ∈ c.shared.investments, (∃ f ∈ c.calls, f.investment = some i.reservation) ∨ Complete env c.shared i

/-- What follows the reservation does not fail. -/
def PurchaseCall.GoesOn (s : PurchaseState) : PurchaseCall → PurchaseReply → Prop
  | .reserve _ _ _, _ => True
  | .authorize authorizationId investment, reply =>
    (checkConsumable s.authorizations (investmentConsumption env investment authorizationId) reply.now).toOption.isSome
  | .consume input _, reply => s.authorizations.Consumes input reply.now ∧ reply.audited
  | .charge investment, reply =>
    (chargeInvestor env users investment reply.funded).toOption.isSome ∧ reply.accepted ∧ reply.answered
  | .transferNft investment _, reply =>
    (transferNftToInvestor env users investment reply.funded).toOption.isSome ∧ reply.accepted ∧ reply.answered
  | .setHashes _ _ _, reply => reply.committed

/-- No purchase fails or is lost after its reservation. -/
def CarriesThrough (c : Config PurchaseState PurchaseCall) : Op PurchaseRequest PurchaseReply → Prop
  | .start _ => True
  | .resume i reply => ∀ f ∈ c.calls[i]?, f.GoesOn env users c.shared reply
  | .crash i => ∀ f ∈ c.calls[i]?, f.investment = none

end Property

/-! ### Slots -/

def PurchaseState.completed (id : String) (s : PurchaseState) : Nat :=
  s.investments.countP fun i => i.id = id ∧ i.nftTransferTxHash.isSome

def PurchaseState.rowSlots (id : String) (s : PurchaseState) : Nat :=
  s.completed id + (1 - s.investments.countP (·.id = id))

def PurchaseCall.carries (id : String) (call : PurchaseCall) : Nat :=
  if call.investment.any (·.id = id) then 1 else 0

section Slots
variable {env : PurchaseEnv} {users : String → Option CustodialUser} {receivables : List Receivable}
  {s s' : PurchaseState} {investment : Investment} {call : PurchaseCall} {reply : PurchaseReply}

theorem reserve_rowSlots {receivable : Receivable} (authorizationId id : String)
    (hnew : investment.nftTransferTxHash = none) (h : reserve investment receivable s = .ok s') :
    s'.rowSlots id + (PurchaseCall.authorize authorizationId investment).carries id = s.rowSlots id := by
  obtain ⟨hfree, rfl⟩ := reserve_inv h
  by_cases hid : investment.id = id
  · have hnone : s.investments.countP (·.id = id) = 0 :=
      List.countP_eq_zero.mpr fun i hi => by simpa [hid] using (hfree i hi).1
    simp [PurchaseState.rowSlots, PurchaseState.completed, PurchaseCall.carries, PurchaseCall.investment,
      List.countP_append, hid, hnone, hnew]
  · simp [PurchaseState.rowSlots, PurchaseState.completed, PurchaseCall.carries, PurchaseCall.investment,
      List.countP_append, hid]

theorem setHashes_completed {paymentTxHash nftTransferTxHash id' : String} (id : String) :
    (setBlockchainTxHashes s id' paymentTxHash nftTransferTxHash).completed id =
      if id' = id then s.investments.countP (·.id = id) else s.completed id := by
  unfold PurchaseState.completed setBlockchainTxHashes Table.modify
  rw [List.countP_map]
  split
  · next hid =>
    refine List.countP_congr fun i _ => ?_
    by_cases hi : i.id = id <;> simp [hid, hi]
  · next hid =>
    refine List.countP_congr fun i _ => ?_
    by_cases hi : i.id = id'
    · simp [hi, hid]
    · simp [hi]

/-- The row of a call gets its hashes. -/
theorem setHashes_rowSlots {paymentTxHash nftTransferTxHash : String} (hs : s.Sound env receivables)
    (hreserved : Reserved s investment) (id : String) (hopen : investment.id = id → s.rowSlots id = 0) :
    (setBlockchainTxHashes s investment.id paymentTxHash nftTransferTxHash).rowSlots id =
      s.rowSlots id + (PurchaseCall.setHashes investment paymentTxHash nftTransferTxHash).carries id := by
  have hcount : ∀ rows : List Investment, rows.countP (·.id = id) = (rows.map Investment.id).countP (· = id) := fun rows => by
    rw [List.countP_map]
    rfl
  have hrows : (setBlockchainTxHashes s investment.id paymentTxHash nftTransferTxHash).investments.countP (·.id = id) =
      s.investments.countP (·.id = id) := by
    rw [hcount, hcount, map_setBlockchainTxHashes fun _ _ _ => rfl]
  have hcarries : (PurchaseCall.setHashes investment paymentTxHash nftTransferTxHash).carries id =
      if investment.id = id then 1 else 0 := by
    simp [PurchaseCall.carries, PurchaseCall.investment]
  rw [PurchaseState.rowSlots, setHashes_completed, hrows, hcarries]
  split
  · next hid =>
    obtain ⟨i, hi, hreservation⟩ := List.mem_map.mp hreserved.1
    have hpos : 0 < s.investments.countP (·.id = id) :=
      List.countP_pos_iff.mpr ⟨i, hi, decide_eq_true (by rw [← hid, ← hreservation]; rfl)⟩
    have hle : s.investments.countP (·.id = id) ≤ 1 := hs.ids.countP_le_one
    rw [hopen hid]
    omega
  · rfl

theorem goesOn_slots (hs : s.Sound env receivables) (hcall : call.Sound env receivables s)
    (hgoes : call.GoesOn env users s reply) (id : String) (hopen : s.rowSlots id + call.carries id ≤ 1) :
    (resumePurchase env users call reply s).1.rowSlots id +
        weight (PurchaseCall.carries id) (resumePurchase env users call reply s).2 =
      s.rowSlots id + call.carries id := by
  cases call with
  | reserve investorUserId dto receivable =>
    simp only [resumePurchase]
    cases h : reserve (newInvestment env investorUserId dto receivable reply.uuid) receivable s with
    | error e => rfl
    | ok s' =>
      cases reply.committed with
      | false => rfl
      | true => exact reserve_rowSlots dto.authorizationId id rfl h
  | authorize authorizationId investment =>
    obtain ⟨authorization, hcheck⟩ := toOption_isSome.mp hgoes
    simp only [resumePurchase, hcheck]
    rfl
  | consume input investment =>
    simp only [resumePurchase, if_pos hgoes.1, if_pos hgoes.2]
    rfl
  | charge investment =>
    obtain ⟨hcharge, hanswer⟩ := hgoes
    obtain ⟨payment, hpayment⟩ := toOption_isSome.mp hcharge
    simp only [resumePurchase, hpayment, if_pos hanswer]
    rfl
  | transferNft investment paymentTxHash =>
    obtain ⟨htransfer, hanswer⟩ := hgoes
    obtain ⟨transfer, htransfer⟩ := toOption_isSome.mp htransfer
    simp only [resumePurchase, htransfer, if_pos hanswer]
    rfl
  | setHashes investment paymentTxHash nftTransferTxHash =>
    have hcommitted : reply.committed = true := hgoes
    simp only [resumePurchase, if_pos hcommitted]
    refine setHashes_rowSlots hs hcall.1 id fun hid => ?_
    have hcarries : (PurchaseCall.setHashes investment paymentTxHash nftTransferTxHash).carries id = 1 := by
      simp [PurchaseCall.carries, PurchaseCall.investment, hid]
    omega

theorem not_goesOn (h : ¬call.GoesOn env users s reply) :
    (∃ investment, call.investment = some investment) ∧ (resumePurchase env users call reply s).2 = none ∧
      (resumePurchase env users call reply s).1.investments = s.investments := by
  cases call with
  | reserve investorUserId dto receivable => exact absurd trivial h
  | authorize authorizationId investment =>
    refine ⟨⟨investment, rfl⟩, ?_, rfl⟩
    rw [PurchaseCall.GoesOn, Bool.not_eq_true, Option.isSome_eq_false_iff, Option.isNone_iff_eq_none] at h
    simp only [resumePurchase, h, Option.map_none]
  | consume input investment =>
    refine ⟨⟨investment, rfl⟩, ?_⟩
    simp only [resumePurchase]
    split
    · next hconsumes =>
      have haudited : ¬reply.audited = true := fun haudited => h ⟨hconsumes, haudited⟩
      exact ⟨if_neg haudited, rfl⟩
    · exact ⟨rfl, rfl⟩
  | charge investment =>
    refine ⟨⟨investment, rfl⟩, ?_⟩
    simp only [resumePurchase]
    cases hcharge : chargeInvestor env users investment reply.funded with
    | error e => exact ⟨rfl, rfl⟩
    | ok payment => exact ⟨if_neg fun hanswer => h ⟨by rw [hcharge]; rfl, hanswer⟩, rfl⟩
  | transferNft investment paymentTxHash =>
    refine ⟨⟨investment, rfl⟩, ?_⟩
    simp only [resumePurchase]
    cases htransfer : transferNftToInvestor env users investment reply.funded with
    | error e => exact ⟨rfl, rfl⟩
    | ok transfer => exact ⟨if_neg fun hanswer => h ⟨by rw [htransfer]; rfl, hanswer⟩, rfl⟩
  | setHashes investment paymentTxHash nftTransferTxHash =>
    have hcommitted : ¬reply.committed = true := h
    exact ⟨⟨investment, rfl⟩, rfl, by simp only [resumePurchase, if_neg hcommitted]⟩

end Slots

/-! ### Every run -/

section Runs
variable {env : PurchaseEnv} {users : String → Option CustodialUser} {runtime : Runtime} {receivables : List Receivable}
  {c c' : Config PurchaseState PurchaseCall} {op : Op PurchaseRequest PurchaseReply}

/-- Each investment has one slot at most. -/
def Slotted (env : PurchaseEnv) (receivables : List Receivable) (c : Config PurchaseState PurchaseCall) : Prop :=
  Holds (PurchaseState.Sound env receivables) (PurchaseCall.Sound env receivables) c ∧
    ∀ id, c.potential (PurchaseState.rowSlots id) (PurchaseCall.carries id) ≤ 1

theorem carries_of_investment {call : PurchaseCall} {investment : Investment} (h : call.investment = some investment) :
    call.carries investment.id = 1 := by
  simp [PurchaseCall.carries, h]

theorem investment_of_carries {call : PurchaseCall} {id : String} (h : 0 < call.carries id) :
    ∃ investment, call.investment = some investment ∧ investment.id = id := by
  unfold PurchaseCall.carries at h
  split at h
  · next hany =>
    obtain ⟨investment, hinvestment, hid⟩ := (Option.any_eq_true _ _).mp hany
    exact ⟨investment, hinvestment, of_decide_eq_true hid⟩
  · cases h

theorem reserved_of_investment {call : PurchaseCall} {s : PurchaseState} {investment : Investment}
    (hcall : call.Sound env receivables s) (h : call.investment = some investment) : Reserved s investment := by
  cases call with
  | reserve investorUserId dto receivable => cases h
  | authorize authorizationId investment =>
    cases h
    exact hcall
  | consume | charge | transferNft | setHashes =>
    cases h
    exact hcall.1

/-- All or nothing means that no slot is lost. -/
theorem allOrNothing_iff (hc : Slotted env receivables c) : AllOrNothing env receivables c ↔
    ∀ id, c.potential (PurchaseState.rowSlots id) (PurchaseCall.carries id) = 1 := by
  obtain ⟨⟨hs, hcalls⟩, hle⟩ := hc
  constructor
  · rintro ⟨-, hrows⟩ id
    refine Nat.le_antisymm (hle id) ?_
    rw [Config.potential, PurchaseState.rowSlots]
    rcases Nat.eq_zero_or_pos (c.shared.investments.countP (·.id = id)) with hnone | hsome
    · omega
    · obtain ⟨i, hi, hid⟩ := List.countP_pos_iff.mp hsome
      obtain rfl := of_decide_eq_true hid
      rcases hrows i hi with ⟨f, hf, hinvestment⟩ | ⟨-, htransfer, -⟩
      · have hload : 0 < c.load (PurchaseCall.carries i.id) :=
          load_pos_iff.mpr ⟨f, hf, Nat.lt_of_lt_of_eq Nat.zero_lt_one (carries_of_investment hinvestment).symm⟩
        omega
      · have hcompleted : 0 < c.shared.completed i.id :=
          List.countP_pos_iff.mpr ⟨i, hi, decide_eq_true ⟨rfl, htransfer⟩⟩
        omega
  · refine fun hslots => ⟨hs.receivables, fun i hi => ?_⟩
    have hrow : 0 < c.shared.investments.countP (·.id = i.id) := List.countP_pos_iff.mpr ⟨i, hi, decide_eq_true rfl⟩
    have hslot : 0 < c.shared.completed i.id ∨ 0 < c.load (PurchaseCall.carries i.id) := by
      have heq := hslots i.id
      rw [Config.potential, PurchaseState.rowSlots] at heq
      omega
    rcases hslot with hcompleted | hload
    · obtain ⟨i', hi', hboth⟩ := List.countP_pos_iff.mp hcompleted
      obtain ⟨hid, htransfer⟩ := of_decide_eq_true hboth
      obtain rfl := hs.ids.eq_of_key hi' hi hid
      exact .inr (hs.complete i' hi htransfer)
    · obtain ⟨f, hf, hcarries⟩ := load_pos_iff.mp hload
      obtain ⟨investment, hinvestment, hid⟩ := investment_of_carries hcarries
      have hreserved := reserved_of_investment (hcalls f hf) hinvestment
      exact .inl ⟨f, hf, by rw [hinvestment, hreserved.row hs hi hid.symm]⟩

theorem startPurchase_rowSlots (request : PurchaseRequest) (s : PurchaseState) (id : String) :
    (startPurchase runtime request s).1.rowSlots id +
        weight (PurchaseCall.carries id) (startPurchase runtime request s).2 =
      s.rowSlots id := by
  cases request with
  | create investorUserId dto =>
    simp only [startPurchase]
    cases checkPurchase s investorUserId dto <;> rfl
  | authorization w drawn => rfl

def slots (id : String) (c : Config PurchaseState PurchaseCall) : Nat :=
  c.potential (PurchaseState.rowSlots id) (PurchaseCall.carries id)

/-- A step keeps every slot, or it is one that fails, and its call loses the slot that it has. -/
theorem step_slots (hc : Slotted env receivables c) (hstep : (purchases env users runtime).step c op = .ok c') :
    (CarriesThrough env users c op ∧ ∀ id, slots id c' = slots id c) ∨
      ¬CarriesThrough env users c op ∧ ∃ f investment, f.investment = some investment ∧
        ∀ id, slots id c' + PurchaseCall.carries id f = slots id c := by
  obtain ⟨⟨hs, hcalls⟩, hle⟩ := hc
  cases step_moved hstep with
  | start request hop hc' =>
    subst hop hc'
    exact .inl ⟨trivial, fun id => potential_start_eq (startPurchase_rowSlots request c.shared id)⟩
  | resume i reply f rest hop hf hperm hc' =>
    subst hop hc'
    have hcall := hcalls f (hperm.mem_iff.mpr List.mem_cons_self)
    have hcarries : CarriesThrough env users c (.resume i reply) ↔ f.GoesOn env users c.shared reply := by
      simp [CarriesThrough, hf]
    by_cases hgoes : f.GoesOn env users c.shared reply
    · refine .inl ⟨hcarries.mpr hgoes, fun id => potential_resume_eq hperm (goesOn_slots hs hcall hgoes id ?_)⟩
      have hslot := hle id
      rw [Config.potential, load_of_perm hperm] at hslot
      omega
    · obtain ⟨⟨investment, hinvestment⟩, hnext, hrows⟩ := not_goesOn hgoes
      refine .inr ⟨fun h => hgoes (hcarries.mp h), f, investment, hinvestment, fun id => ?_⟩
      have hrowSlots : (resumePurchase env users f reply c.shared).1.rowSlots id = c.shared.rowSlots id := by
        rw [PurchaseState.rowSlots, PurchaseState.completed, hrows]
        rfl
      have hweight : weight (PurchaseCall.carries id) (resumePurchase env users f reply c.shared).2 = 0 := by
        rw [hnext]
        rfl
      have hpotential : slots id (.after rest (resumePurchase env users f reply c.shared)) +
          (c.shared.rowSlots id + f.carries id) = slots id c + _ := potential_resume hperm
      rw [hrowSlots, hweight] at hpotential
      show slots id (.after rest (resumePurchase env users f reply c.shared)) + _ = _
      omega
  | crash i f rest hop hperm hc' =>
    subst hop
    obtain ⟨f', rest', hf', hperm', rfl⟩ := crash_lost hstep
    have hcarries : CarriesThrough env users c (.crash i) ↔ f'.investment = none := by
      simp [CarriesThrough, hf']
    cases hinvestment : f'.investment with
    | none =>
      refine .inl ⟨hcarries.mpr hinvestment, fun id => ?_⟩
      have hnone : f'.carries id = 0 := by simp [PurchaseCall.carries, hinvestment]
      have hpotential := potential_crash (d := PurchaseState.rowSlots id) (w := PurchaseCall.carries id) hperm'
      rwa [hnone] at hpotential
    | some investment =>
      refine .inr ⟨fun h => ?_, f', investment, hinvestment, fun id => potential_crash hperm'⟩
      rw [hcarries.mp h] at hinvestment
      cases hinvestment

theorem Slotted.step (hc : Slotted env receivables c) (hstep : (purchases env users runtime).step c op = .ok c') :
    Slotted env receivables c' := by
  refine ⟨(purchases_outline env users runtime receivables).step hc.1
    (allows_all (fun _ _ => trivial) (fun _ _ _ => trivial) c op) hstep, fun id => ?_⟩
  have hle : slots id c ≤ 1 := hc.2 id
  show slots id c' ≤ 1
  rcases step_slots hc hstep with ⟨-, hkept⟩ | ⟨-, f, investment, -, hlost⟩
  · rw [hkept id]
    exact hle
  · have hslot := hlost id
    omega

/-- A step that keeps all or nothing is one that does not fail after a reservation. -/
theorem allOrNothing_step (hc : Slotted env receivables c) (hall : AllOrNothing env receivables c)
    (hstep : (purchases env users runtime).step c op = .ok c') :
    AllOrNothing env receivables c' ↔ CarriesThrough env users c op := by
  rw [allOrNothing_iff (hc.step hstep)]
  have hone : ∀ id, slots id c = 1 := (allOrNothing_iff hc).mp hall
  rcases step_slots hc hstep with ⟨hcarries, hkept⟩ | ⟨hfails, f, investment, hinvestment, hlost⟩
  · exact iff_of_true (fun id => (hkept id).trans (hone id)) hcarries
  · refine iff_of_false (fun hkept => ?_) hfails
    have hslot := hlost investment.id
    have hkept' : slots investment.id c' = 1 := hkept investment.id
    rw [carries_of_investment hinvestment, hone, hkept'] at hslot
    cases hslot

theorem carriesThrough_of_refused {e : Refused} (h : (purchases env users runtime).step c op = .error e) :
    CarriesThrough env users c op := by
  cases op with
  | start request => trivial
  | resume i reply | crash i =>
    intro f hf
    unfold Handler.step at h
    simp only [Option.mem_def.mp hf] at h
    cases h

end Runs

/-- Purchases are all or nothing in exactly the runs in which no purchase fails or is lost once its reservation is
    committed. -/
theorem purchase_all_or_nothing_iff (env : PurchaseEnv) (users : String → Option CustodialUser) (runtime : Runtime)
    (receivables : List Receivable) (authorizations : AuthorizationStore) (ops : List (Op PurchaseRequest PurchaseReply)) :
    Throughout (purchases env users runtime).step (AllOrNothing env receivables)
        ⟨.initial receivables authorizations, []⟩ ops ↔
      Along (purchases env users runtime).step (CarriesThrough env users) ⟨.initial receivables authorizations, []⟩ ops := by
  have hinitial : Slotted env receivables ⟨.initial receivables authorizations, []⟩ :=
    ⟨⟨.initial env receivables authorizations, List.forall_mem_nil _⟩, fun _ => Nat.le_refl 1⟩
  refine (throughout_iff_along (I := Slotted env receivables) (fun c op c' hc hstep => hc.step hstep)
    (fun c op c' hc hall hstep => allOrNothing_step hc hall hstep) hinitial ⟨fun _ => rfl, List.forall_mem_nil _⟩).trans
    ⟨fun halong => halong.mono fun c op hcarries => ?_, fun halong => halong.mono fun _ _ hcarries _ _ => hcarries⟩
  cases hstep : (purchases env users runtime).step c op with
  | error e => exact carriesThrough_of_refused hstep
  | ok c' => exact hcarries c' hstep

section Examples

def testPurchases : PurchaseEnv where
  configured := true
  walletSecret := true
  platformAddress := "GPLATFORM"
  deriveKeypair seed := "G-" ++ seed
  toFixed _ digits := if digits = 2 then "970.00" else "970.0000000"
  number _ := 970

def testRuntime : Runtime where
  sha256 message := message
  verify _ _ _ := false
  toISOString _ := ""

def testReceivable : Receivable := ⟨"receivable", "pme", 1000, .active, "debtor", "document", none, 0⟩

def purchaseAuthorization : FinancialAuthorization where
  id := "authorization"
  userId := "investor"
  walletId := "GINVESTOR"
  operation := .investmentPurchase
  resourceId := some "receivable"
  amount := some "970.00"
  destination := none
  nonce := "nonce"
  payloadHash := "hash"
  payload := ⟨FINANCIAL_AUTH_DOMAIN, FINANCIAL_AUTH_VERSION, "testnet", .investmentPurchase, "investor", "GINVESTOR",
    some "receivable", some "970.00", none, "nonce", ""⟩
  expiresAt := 300000
  verifiedAt := some 1

def privyInvestor (userId : String) : Option CustodialUser :=
  if userId = "investor" then some ⟨none, none, some "GINVESTOR"⟩ else none

def purchaseByPrivyInvestor : List (Op PurchaseRequest PurchaseReply) :=
  [.start (.create "investor" ⟨"receivable", "authorization", none⟩), .resume 0 { uuid := "investment" },
    .resume 0 { now := 2 }, .resume 0 { now := 3 }, .resume 0 {}]

def unpaidInvestment : Investment := ⟨"investment", "investor", "receivable", 970, 1000, DISCOUNT_RATE, none, none, none⟩

/-- The authorization is consumed, the charge fails because the investor has a Privy wallet, and the investment stays. -/
theorem unpaid_investment_stays :
    ¬Throughout (purchases testPurchases privyInvestor testRuntime).step (AllOrNothing testPurchases [testReceivable])
      ⟨.initial [testReceivable] ⟨[purchaseAuthorization], []⟩, []⟩ purchaseByPrivyInvestor := by
  intro h
  rcases h.last.2 unpaidInvestment (by decide +kernel) with hcall | ⟨hpayment, -⟩
  · exact absurd hcall (by decide +kernel)
  · cases hpayment

end Examples
end CredBridge.Api
