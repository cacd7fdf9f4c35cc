import CredBridge.Api.PixEffects
import CredBridge.Api.Receivables

/-! # A receivable only moves forward, where its status is still the one that was checked

Every call checks the status first and writes it last, by the identifier alone, and a settlement checks only that there
was none yet. So the status moves as the calls mean it to exactly if each write finds a status that its own call lets
through. -/

namespace CredBridge.Api
open Concurrent Contracts Machine Result Submission

section Property
variable {σ : Type}

def statusEdges : List (ReceivableStatus × ReceivableStatus) :=
  [(.pending, .validated), (.pending, .other "rejected"), (.validated, .tokenized), (.tokenized, .assignmentPending),
    (.tokenized, .active), (.assignmentPending, .active), (.active, .other "settled")]

/-- Each receivable has the status that it had, or moves along an edge. -/
def StatusesStep (s s' : PixState σ) : Prop :=
  ∀ id r, s.findReceivable id = some r → ∃ r', s'.findReceivable id = some r' ∧
    (r'.status = r.status ∨ (r.status, r'.status) ∈ statusEdges)

/-- What is rejected stays rejected, and what is settled stays settled. -/
def FinalKept (s s' : PixState σ) : Prop :=
  ∀ status ∈ [ReceivableStatus.other "rejected", .other "settled"], ∀ id r, s.findReceivable id = some r →
    r.status = status → ∃ r', s'.findReceivable id = some r' ∧ r'.status = status

def MovesForward (env : CreditEnv σ) (c : Config (CreditState σ) CreditCall)
    (ops : List (Op CreditRequest CreditReply)) : Prop :=
  Along (creditApi env).step
      (fun c op => StatusesStep c.shared.toPixState (next (creditApi env).step c op).shared.toPixState) c ops ∧
    Onward (creditApi env).step (fun c c' => FinalKept c.shared.toPixState c'.shared.toPixState) c ops

/-- The receivable has a status that the call lets through, or the one that it writes. -/
def Finds (s : PixState σ) (id : String) (checked : List ReceivableStatus) (written : ReceivableStatus) : Prop :=
  ∀ r ∈ s.findReceivable id, r.status ∈ checked ∨ r.status = written

def ReceivableStep.FindsChecked (s : PixState σ) : ReceivableStep → Prop
  | .validate id _ => Finds s id [.pending] .validated
  | .reject id _ => Finds s id [.pending] (.other "rejected")
  | .setTokenized r _ => Finds s r.id [.validated] .tokenized
  | .setAssignmentPending id => Finds s id [.tokenized] .assignmentPending
  | .setAssigned r _ _ | .setBought r _ _ => Finds s r.id [.tokenized, .assignmentPending] .active
  | _ => True

/-- The statement is executed. -/
def ReceivableReply.Executes : ReceivableReply → Prop
  | .ok _ => True
  | .threw executed => executed.isSome
  | .submitted .. => False

def PixReply.Executes : PixReply → Prop
  | .ok _ => True
  | .threw executed _ => executed.isSome
  | .submitted .. => False

/-- Each write of a status finds one that its call lets through; a settlement, which lets through all but its own, finds
    the receivable active. -/
def FindsChecked (env : CreditEnv σ) (s : CreditState σ) : CreditCall → CreditReply → Prop
  | .receivable ⟨[], step⟩, .receivable reply => reply.Executes → step.FindsChecked s.toPixState
  | .pix (.markSettled _ _ receivable _), .pix reply =>
    reply.Executes → Finds s.toPixState receivable.id [.active] (.other "settled")
  | .purchase (.reserve investorUserId dto receivable), .purchase reply =>
    let investment := newInvestment env.purchase investorUserId dto receivable reply.uuid
    (reserve investment receivable s.purchaseState).toOption.isSome → reply.committed →
      Finds s.toPixState receivable.id [.active] .active
  | _, _ => True

end Property

/-! ### Statuses -/

section Statuses
variable {σ : Type} {s s' : PixState σ} {id : String} {change : ReceivableRow → ReceivableRow}

theorem StatusesStep.of_kept (h : ∀ id r, s.findReceivable id = some r →
    ∃ r', s'.findReceivable id = some r' ∧ r'.status = r.status) : StatusesStep s s' := by
  intro id r hr
  obtain ⟨r', hr', hstatus⟩ := h id r hr
  exact ⟨r', hr', .inl hstatus⟩

theorem StatusesStep.of_eq (h : s'.receivables = s.receivables) : StatusesStep s s' := by
  refine .of_kept fun id r hr => ⟨r, ?_, rfl⟩
  unfold PixState.findReceivable at hr ⊢
  rwa [h]

theorem StatusesStep.append {row : ReceivableRow} (h : s'.receivables = s.receivables ++ [row]) :
    StatusesStep s s' := by
  refine .of_kept fun id r hr => ⟨r, ?_, rfl⟩
  unfold PixState.findReceivable at hr ⊢
  rw [h]
  exact Table.find_append hr

theorem findReceivable_update (hid : ∀ r, (change r).id = r.id) (id' : String) :
    (s.updateReceivable id change).findReceivable id' =
      (s.findReceivable id').map fun r => if r.id = id then change r else r :=
  Table.find_modify fun r h => (hid r).trans h

theorem StatusesStep.update (hid : ∀ r, (change r).id = r.id) (hstatus : ∀ r, (change r).status = r.status) :
    StatusesStep s (s.updateReceivable id change) := by
  refine .of_kept fun id' r hr => ?_
  rw [findReceivable_update hid, hr]
  refine ⟨_, rfl, ?_⟩
  dsimp only
  split
  · exact hstatus r
  · rfl

/-- A write of a status is a step exactly if the row's own status is the same, or one with an edge to it. -/
theorem statusesStep_update_iff {written : ReceivableStatus} (hid : ∀ r, (change r).id = r.id)
    (hstatus : ∀ r, (change r).status = written) :
    StatusesStep s (s.updateReceivable id change) ↔
      ∀ r ∈ s.findReceivable id, written = r.status ∨ (r.status, written) ∈ statusEdges := by
  constructor
  · intro h r hr
    obtain ⟨r', hr', hstep⟩ := h id r hr
    rw [findReceivable_update hid, hr, Option.map_some, if_pos (id_of_findReceivable hr)] at hr'
    rwa [← Option.some.inj hr', hstatus] at hstep
  · intro h id' r hr
    rw [findReceivable_update hid, hr]
    refine ⟨_, rfl, ?_⟩
    dsimp only
    split
    · next hrow =>
      rw [hstatus]
      have hsame : id' = id := (id_of_findReceivable hr).symm.trans hrow
      exact h r (hsame ▸ hr)
    · exact .inl rfl

theorem StatusesStep.finalKept (h : StatusesStep s s') : FinalKept s s' := by
  intro status hfinal id r hr hstatus
  obtain ⟨r', hr', hsame | hedge⟩ := h id r hr
  · exact ⟨r', hr', hsame.trans hstatus⟩
  · rw [hstatus] at hedge
    simp only [List.mem_cons, List.not_mem_nil, or_false] at hfinal
    rcases hfinal with rfl | rfl <;> simp [statusEdges] at hedge

theorem FinalKept.status (h : FinalKept s s') (id : String) (status : ReceivableStatus)
    (hfinal : status ∈ [ReceivableStatus.other "rejected", .other "settled"])
    (hs : (s.findReceivable id).map (·.status) = some status) :
    (s'.findReceivable id).map (·.status) = some status := by
  obtain ⟨r, hr, hstatus⟩ := Option.map_eq_some_iff.mp hs
  obtain ⟨r', hr', hstatus'⟩ := h status hfinal id r hr hstatus
  rw [hr', ← hstatus']
  rfl

theorem FinalKept.refl (s : PixState σ) : FinalKept s s := fun _ _ _ r hr hstatus => ⟨r, hr, hstatus⟩

theorem FinalKept.trans {s'' : PixState σ} (h : FinalKept s s') (h' : FinalKept s' s'') : FinalKept s s'' := by
  intro status hfinal id r hr hstatus
  obtain ⟨r', hr', hstatus'⟩ := h status hfinal id r hr hstatus
  exact h' status hfinal id r' hr' hstatus'

theorem finds_iff {checked : List ReceivableStatus} {written : ReceivableStatus}
    (hedges : ∀ status, (status, written) ∈ statusEdges ↔ status ∈ checked) (hid : ∀ r, (change r).id = r.id)
    (hstatus : ∀ r, (change r).status = written) :
    StatusesStep s (s.updateReceivable id change) ↔ Finds s id checked written := by
  rw [statusesStep_update_iff hid hstatus]
  refine forall₂_congr fun r _ => ?_
  rw [hedges, or_comm, eq_comm (a := written)]

end Statuses

/-! ### The calls of a receivable -/

section Receivables
variable {σ : Type} {env : CreditEnv σ} {s : CreditState σ} {step : ReceivableStep}

theorem execute_statuses_iff (drawn : Drawn) :
    StatusesStep s.toPixState (step.execute env drawn s).toPixState ↔ step.FindsChecked s.toPixState := by
  cases step with
  | validate id operatorId => exact finds_iff (by simp [statusEdges]) (fun _ => rfl) fun _ => rfl
  | reject id operatorId => exact finds_iff (by simp [statusEdges]) (fun _ => rfl) fun _ => rfl
  | setTokenized r txHash => exact finds_iff (by simp [statusEdges]) (fun _ => rfl) fun _ => rfl
  | setAssignmentPending id => exact finds_iff (by simp [statusEdges]) (fun _ => rfl) fun _ => rfl
  | setAssigned r | setBought r => exact finds_iff (by simp [statusEdges]) (fun _ => rfl) fun _ => rfl
  | create userId dto =>
    refine iff_of_true ?_ trivial
    simp only [ReceivableStep.execute]
    split
    · exact .of_eq rfl
    · exact .append rfl
  | createDocument data =>
    refine iff_of_true ?_ trivial
    simp only [ReceivableStep.execute]
    split <;> exact .of_eq rfl
  | setDocumentHash data => exact iff_of_true (.update (fun _ => rfl) fun _ => rfl) trivial
  | _ => exact iff_of_true (.of_eq rfl) trivial

theorem submits_findsChecked {submission : Except ApiError LedgerCalls} (h : step.submits env = some submission) :
    step.FindsChecked s.toPixState := by
  cases step with
  | invokeTokenize | invokeTransfer | submitSigned | invokeBuy => trivial
  | _ => cases h

theorem resumeReceivable_statuses_iff (call : ReceivableCall) (reply : ReceivableReply) :
    StatusesStep s.toPixState (resumeReceivable env call reply s).1.toPixState ↔
      FindsChecked env s (.receivable call) (.receivable reply) := by
  have hresumed := resumeReceivable_resumed env call reply s
  generalize resumeReceivable env call reply s = r at hresumed ⊢
  cases hresumed with
  | waits _ _ hwaits hr =>
    subst hr
    refine iff_of_true (.of_eq rfl) ?_
    obtain ⟨_ | _, step⟩ := call
    · rcases hwaits with ⟨submission, hsubmits⟩ | ⟨fate, time, txHash, rfl⟩
      · exact fun _ => submits_findsChecked hsubmits
      · exact nofun
    · trivial
  | logged _ _ _ _ hr =>
    rw [hr, receivableGoOn_fst]
    exact iff_of_true (.of_eq rfl) trivial
  | unlogged _ _ _ executed hr =>
    rw [hr, receivableGoOn_fst]
    refine iff_of_true ?_ trivial
    cases executed <;> exact .of_eq rfl
  | ok step drawn hr =>
    rw [hr, receivableGoOn_fst, execute_statuses_iff]
    exact ⟨fun h _ => h, fun h => h trivial⟩
  | threw step executed hr =>
    rw [hr, receivableGoOn_fst]
    cases executed with
    | none => exact iff_of_true (.of_eq rfl) nofun
    | some drawn => exact (execute_statuses_iff drawn).trans ⟨fun h _ => h, fun h => h rfl⟩
  | never _ _ _ _ hr | late _ _ _ _ _ _ _ _ hr | confirmed _ _ _ _ _ _ _ _ hr =>
    rw [hr, receivableGoOn_fst]
    exact iff_of_true (.of_eq rfl) nofun

theorem startReceivable_statuses (env : CreditEnv σ) (request : ReceivableRequest) (s : CreditState σ) :
    StatusesStep s.toPixState (startReceivable env request s).1.toPixState := by
  refine .of_eq ?_
  cases request with
  | transact time tx =>
    simp only [startReceivable]
    cases (env.pix.execute time tx s.chain).toOption <;> rfl
  | _ => rfl

end Receivables

/-! ### Settlements -/

section Pix
variable {σ : Type} {env : PixEnv σ} {s : PixState σ} {call : PixCall}

theorem execute_receivables (value : String)
    (hcall : ∀ dto collection receivable txHash, call ≠ .markSettled dto collection receivable txHash) :
    (call.execute env value s).receivables = s.receivables := by
  cases call with
  | markSettled dto collection receivable txHash => exact absurd rfl (hcall dto collection receivable txHash)
  | recordEvent | createTransaction =>
    simp only [PixCall.execute]
    split <;> rfl
  | orderWithdrawal =>
    simp only [PixCall.execute, PixState.orderWithdrawal]
    split <;> rfl
  | _ => rfl

theorem resume_receivables (reply : PixReply)
    (hcall : ∀ dto collection receivable txHash, call ≠ .markSettled dto collection receivable txHash) :
    (resumePixCall env call reply s).1.receivables = s.receivables := by
  refine resume_keeps PixState.receivables (fun _ _ => rfl) (fun value => execute_receivables value hcall)
    (fun chain _ _ => ?_) (fun txHash _ => ?_) reply <;> cases call <;> rfl

theorem start_receivables (env : PixEnv σ) (request : PixRequest) (s : PixState σ) :
    (startPixCall env request s).1.receivables = s.receivables := by
  cases startPixCall_received env request s with
  | answered _ _ hr | recording _ hr | refused _ _ hr | burning _ _ _ _ hr | moved _ _ hr =>
    exact congrArg (fun r => r.1.receivables) hr

theorem markSettled_statuses_iff {dto : PixCollectionCallback} {collection : Option ReceivableCollection}
    {receivable : ReceivableRow} {txHash : String} (reply : PixReply) :
    StatusesStep s (resumePixCall env (.markSettled dto collection receivable txHash) reply s).1 ↔
      (reply.Executes → Finds s receivable.id [.active] (.other "settled")) := by
  have hwrite : ∀ value, StatusesStep s ((PixCall.markSettled dto collection receivable txHash).execute env value s) ↔
      Finds s receivable.id [.active] (.other "settled") :=
    fun _ => finds_iff (by simp [statusEdges]) (fun _ => rfl) fun _ => rfl
  cases reply with
  | ok value => exact (hwrite value).trans ⟨fun h _ => h, fun h => h trivial⟩
  | threw executed message =>
    cases executed with
    | none => exact iff_of_true (.of_eq rfl) nofun
    | some value => exact (hwrite value).trans ⟨fun h _ => h, fun h => h rfl⟩
  | submitted fate time txHash message => exact iff_of_true (.of_eq rfl) nofun

end Pix

/-! ### Purchases -/

section Purchases
variable {σ : Type} {env : CreditEnv σ} {s : CreditState σ} {p : PurchaseState}

theorem zipWith_toReceivable (rows : List ReceivableRow) (f : Receivable → Receivable) :
    List.zipWith (fun row r => { row with toReceivable := r }) rows ((rows.map (·.toReceivable)).map f) =
      rows.map fun row => { row with toReceivable := f row.toReceivable } := by
  induction rows with
  | nil => rfl
  | cons row rows ih => exact congrArg _ ih

theorem withPurchases_receivables (h : p.receivables = s.purchaseState.receivables) :
    (s.withPurchases p).receivables = s.receivables := by
  show List.zipWith _ s.receivables p.receivables = s.receivables
  rw [h]
  show List.zipWith _ s.receivables (s.receivables.map (·.toReceivable)) = s.receivables
  rw [← List.map_id (s.receivables.map _), zipWith_toReceivable]
  exact List.map_id s.receivables

theorem withPurchases_active {id : String} (h : p.receivables = setReceivableActive s.purchaseState.receivables id) :
    (s.withPurchases p).receivables = (s.toPixState.updateReceivable id (·.setStatus .active)).receivables := by
  show List.zipWith _ s.receivables p.receivables = Table.modify _ _ _ s.receivables
  rw [h]
  refine (zipWith_toReceivable s.receivables _).trans (List.map_congr_left fun row _ => ?_)
  dsimp only
  split <;> rfl

theorem statusesStep_of_receivables {s s' s'' : PixState σ} (h : s''.receivables = s'.receivables) :
    StatusesStep s s'' ↔ StatusesStep s s' := by
  unfold StatusesStep PixState.findReceivable
  rw [h]

theorem find_purchaseState {id : String} :
    Table.find Receivable.id id s.purchaseState.receivables = (s.findReceivable id).map (·.toReceivable) :=
  List.find?_map

/-- A purchase that waits with its reservation has found the receivable active; since then it may have been settled. -/
def CreditCall.FoundActive (s : CreditState σ) : CreditCall → Prop
  | .purchase (.reserve _ _ wanted) => ∃ r ∈ s.findReceivable wanted.id, r.status ∈ [.active, .other "settled"]
  | _ => True

theorem CreditCall.FoundActive.kept {s' : CreditState σ} {call : CreditCall}
    (hstep : StatusesStep s.toPixState s'.toPixState) (h : call.FoundActive s) : call.FoundActive s' := by
  unfold CreditCall.FoundActive at h ⊢
  split at h
  · obtain ⟨r, hr, hstatus⟩ := h
    obtain ⟨r', hr', hsame | hedge⟩ := hstep _ r hr
    · exact ⟨r', hr', hsame ▸ hstatus⟩
    · refine ⟨r', hr', ?_⟩
      simp only [List.mem_cons, List.not_mem_nil, or_false] at hstatus
      rcases hstatus with hactive | hsettled
      · rw [hactive] at hedge
        simp [statusEdges] at hedge
        simp [hedge]
      · rw [hsettled] at hedge
        simp [statusEdges] at hedge
  · trivial

theorem startPurchase_receivables (runtime : Runtime) (request : PurchaseRequest) (p : PurchaseState) :
    (startPurchase runtime request p).1.receivables = p.receivables := by
  cases request <;> rfl

theorem startPurchase_foundActive {request : PurchaseRequest} {call : PurchaseCall}
    (h : call ∈ (startPurchase env.runtime request s.purchaseState).2) :
    CreditCall.FoundActive s (.purchase call) := by
  cases request with
  | authorization w drawn => cases h
  | create investorUserId dto =>
    obtain ⟨receivable, hcheck, rfl⟩ := Option.map_eq_some_iff.mp h
    obtain ⟨receivable', hfind, hcheck⟩ := orThrow_bind_eq_ok.mp (toOption_eq_some.mp hcheck)
    obtain ⟨-, hcheck⟩ := throwIf_bind_eq_ok.mp hcheck
    obtain ⟨hactive, hcheck⟩ := throwIf_bind_eq_ok.mp hcheck
    obtain ⟨-, hcheck⟩ := throwIf_bind_eq_ok.mp hcheck
    obtain rfl := pure_eq_ok.mp hcheck
    rw [find_purchaseState] at hfind
    obtain ⟨r, hr, rfl⟩ := Option.map_eq_some_iff.mp hfind
    have hrow : s.findReceivable r.id = some r := by rwa [id_of_findReceivable hr]
    exact ⟨r, hrow, by simp [not_not.mp hactive]⟩

theorem resumePurchase_receivables {call : PurchaseCall} (reply : PurchaseReply) (p : PurchaseState)
    (hcall : ∀ investorUserId dto receivable, call ≠ .reserve investorUserId dto receivable) :
    (resumePurchase env.purchase env.custodialUsers call reply p).1.receivables = p.receivables := by
  cases resumePurchase_resumed env.purchase env.custodialUsers call reply p with
  | reserved => exact absurd rfl (hcall _ _ _)
  | authorized hr | consumed _ hr | charged _ hr | transferred _ hr | hashed hr | failed hr =>
    exact congrArg (fun r => r.1.receivables) hr

theorem reserve_receivables {p' : PurchaseState} {investment : Investment} {receivable : Receivable}
    (h : reserve investment receivable p = .ok p') :
    p'.receivables = setReceivableActive p.receivables receivable.id := by
  obtain ⟨-, h⟩ := throwIf_bind_eq_ok.mp h
  rw [← pure_eq_ok.mp h]

theorem active_statuses_iff {id : String} (hactive : ∃ r ∈ s.findReceivable id, r.status ∈ [.active, .other "settled"])
    (h : p.receivables = setReceivableActive s.purchaseState.receivables id) :
    StatusesStep s.toPixState (s.withPurchases p).toPixState ↔ Finds s.toPixState id [.active] .active := by
  have hwrite : StatusesStep s.toPixState (s.toPixState.updateReceivable id (·.setStatus .active)) ↔
      ∀ r ∈ s.findReceivable id, .active = r.status ∨ (r.status, .active) ∈ statusEdges :=
    statusesStep_update_iff (fun _ => rfl) fun _ => rfl
  rw [statusesStep_of_receivables (withPurchases_active h), hwrite]
  obtain ⟨row, hrow, hstatus⟩ := hactive
  refine forall₂_congr fun r hr => ?_
  obtain rfl : row = r := Option.some.inj (hrow.symm.trans hr)
  simp only [List.mem_cons, List.not_mem_nil, or_false] at hstatus
  rcases hstatus with hstatus | hstatus <;> simp [hstatus, statusEdges]

theorem resumePurchase_statuses_iff {call : PurchaseCall} (reply : PurchaseReply)
    (hactive : CreditCall.FoundActive s (.purchase call)) :
    StatusesStep s.toPixState
        (s.withPurchases (resumePurchase env.purchase env.custodialUsers call reply s.purchaseState).1).toPixState ↔
      FindsChecked env s (.purchase call) (.purchase reply) := by
  by_cases hreserve : ∃ investorUserId dto receivable, call = .reserve investorUserId dto receivable
  · obtain ⟨investorUserId, dto, wanted, rfl⟩ := hreserve
    simp only [FindsChecked, resumePurchase]
    cases hok : reserve (newInvestment env.purchase investorUserId dto wanted reply.uuid) wanted s.purchaseState with
    | error e => exact iff_of_true (.of_eq (withPurchases_receivables rfl)) fun h => by cases h
    | ok p' =>
      cases reply.committed with
      | false => exact iff_of_true (.of_eq (withPurchases_receivables rfl)) fun _ h => by cases h
      | true =>
        refine (active_statuses_iff hactive (reserve_receivables hok)).trans ?_
        exact ⟨fun h _ _ => h, fun h => h rfl rfl⟩
  · have hcall : ∀ investorUserId dto receivable, call ≠ .reserve investorUserId dto receivable :=
      fun investorUserId dto wanted h => hreserve ⟨investorUserId, dto, wanted, h⟩
    refine iff_of_true (.of_eq (withPurchases_receivables (resumePurchase_receivables reply _ hcall))) ?_
    unfold FindsChecked
    split
    · next hcase => cases hcase
    · next hcase => cases hcase
    · next hcase _ =>
      cases hcase
      exact absurd rfl (hcall _ _ _)
    · trivial

theorem resumePurchase_ne_reserve {call : PurchaseCall} {reply : PurchaseReply} {investorUserId : String}
    {dto : CreateInvestmentDto} {receivable : Receivable} :
    (resumePurchase env.purchase env.custodialUsers call reply p).2 ≠
      some (.reserve investorUserId dto receivable) := by
  intro h
  cases resumePurchase_resumed env.purchase env.custodialUsers call reply p with
  | reserved _ _ hr | authorized hr | hashed hr | failed hr =>
    rw [hr] at h
    cases h
  | consumed _ hr =>
    rw [hr] at h
    dsimp only at h
    split at h <;> cases h
  | charged hnext hr =>
    rw [hr] at h
    obtain ⟨-, txHash, hsame⟩ := hnext _ h
    cases hsame
  | transferred hnext hr =>
    rw [hr] at h
    obtain ⟨txHash, hsame⟩ := hnext _ h
    cases hsame

theorem resumePurchase_foundActive {call next : PurchaseCall} {reply : PurchaseReply} (s' : CreditState σ)
    (h : (resumePurchase env.purchase env.custodialUsers call reply p).2 = some next) :
    CreditCall.FoundActive s' (.purchase next) := by
  cases next with
  | reserve investorUserId dto receivable => exact absurd h resumePurchase_ne_reserve
  | _ => trivial

end Purchases

/-! ### Every run -/

section Runs
variable {σ : Type} (env : CreditEnv σ)

theorem resume_statuses_iff {call : CreditCall} {s : CreditState σ} (reply : CreditReply) (hcall : call.FoundActive s) :
    StatusesStep s.toPixState ((creditApi env).resume call reply s).1.toPixState ↔ FindsChecked env s call reply := by
  cases call with
  | pix call =>
    cases reply with
    | pix reply =>
      by_cases hsettles : ∃ dto collection receivable txHash, call = .markSettled dto collection receivable txHash
      · obtain ⟨dto, collection, receivable, txHash, rfl⟩ := hsettles
        exact markSettled_statuses_iff reply
      · refine iff_of_true (.of_eq (resume_receivables reply fun dto collection receivable txHash h =>
          hsettles ⟨dto, collection, receivable, txHash, h⟩)) ?_
        cases call with
        | markSettled dto collection receivable txHash =>
          exact absurd ⟨dto, collection, receivable, txHash, rfl⟩ hsettles
        | _ => trivial
    | purchase | receivable => exact iff_of_true (.of_eq rfl) (by cases call <;> trivial)
  | purchase call =>
    cases reply with
    | purchase reply => exact resumePurchase_statuses_iff reply hcall
    | pix | receivable => exact iff_of_true (.of_eq rfl) (by cases call <;> trivial)
  | receivable call =>
    cases reply with
    | receivable reply => exact resumeReceivable_statuses_iff call reply
    | pix | purchase => exact iff_of_true (.of_eq rfl) (by obtain ⟨_ | _, step⟩ := call <;> trivial)

theorem start_statuses (request : CreditRequest) (s : CreditState σ) :
    StatusesStep s.toPixState ((creditApi env).start request s).1.toPixState := by
  cases request with
  | pix request => exact .of_eq (start_receivables env.pix request s.toPixState)
  | purchase request =>
    exact .of_eq (withPurchases_receivables (startPurchase_receivables env.runtime request s.purchaseState))
  | receivable request => exact startReceivable_statuses env request s

theorem statuses_outline :
    Outline (creditApi env) (fun _ _ => True) (FindsChecked env) (fun _ => True) (fun s call => call.FoundActive s)
      (fun s s' => StatusesStep s.toPixState s'.toPixState) where
  start request s _ _ := by
    have hstep := start_statuses env request s
    refine ⟨trivial, hstep, fun call hcall => ?_⟩
    cases request with
    | purchase request =>
      obtain ⟨call, hnext, rfl⟩ := Option.map_eq_some_iff.mp hcall
      exact (startPurchase_foundActive hnext).kept hstep
    | pix | receivable =>
      obtain ⟨call, -, rfl⟩ := Option.map_eq_some_iff.mp hcall
      trivial
  resume call reply s _ hcall hfinds := by
    have hstep := (resume_statuses_iff env reply hcall).mpr hfinds
    refine ⟨trivial, hstep, fun next hnext => ?_⟩
    cases call with
    | pix call =>
      cases reply with
      | pix reply =>
        obtain ⟨call', -, rfl⟩ := Option.map_eq_some_iff.mp hnext
        trivial
      | purchase | receivable =>
        cases hnext
        trivial
    | purchase call =>
      cases reply with
      | purchase reply =>
        obtain ⟨call', hcall', rfl⟩ := Option.map_eq_some_iff.mp hnext
        exact resumePurchase_foundActive _ hcall'
      | pix | receivable =>
        cases hnext
        exact hcall
    | receivable call =>
      cases reply with
      | receivable reply =>
        obtain ⟨call', -, rfl⟩ := Option.map_eq_some_iff.mp hnext
        trivial
      | pix | purchase =>
        cases hnext
        trivial
  stable _ _ _ hstep hcall := hcall.kept hstep

/-- Statuses move along the edges, and what is rejected or settled stays so, exactly in the runs whose writes each find
    a status that their call lets through. -/
theorem receivables_move_forward_iff (s : CreditState σ) (ops : List (Op CreditRequest CreditReply)) :
    MovesForward env ⟨s, []⟩ ops ↔
      Along (creditApi env).step (Allows (fun _ _ => True) (FindsChecked env)) ⟨s, []⟩ ops := by
  have hsteps : Along (creditApi env).step
      (fun c op => StatusesStep c.shared.toPixState (next (creditApi env).step c op).shared.toPixState) ⟨s, []⟩ ops ↔
      Along (creditApi env).step (Allows (fun _ _ => True) (FindsChecked env)) ⟨s, []⟩ ops :=
    (statuses_outline env).along_iff (Q := fun s s' => StatusesStep s.toPixState s'.toPixState)
      (fun _ _ => .of_eq rfl) (fun request s _ => start_statuses env request s)
      (fun _ reply _ _ hcall => resume_statuses_iff env reply hcall) ⟨trivial, List.forall_mem_nil _⟩
  refine ⟨fun h => hsteps.mp h.1, fun h => ⟨hsteps.mpr h, ?_⟩⟩
  exact onward_of_along (fun c => .refl c.shared.toPixState) (fun _ _ _ => .trans)
    (fun c op c' _ hstep hnext => ⟨trivial, (next_of_ok hnext ▸ hstep).finalKept⟩) trivial (hsteps.mpr h)

end Runs

section Examples

def testCreditEnv : CreditEnv Unit where
  pix := { testPixEnv with poolContractConfigured := false }
  purchase :=
    { configured := true
      walletSecret := true
      platformAddress := "GPLATFORM"
      deriveKeypair := id
      toFixed := fun _ _ => "60.00"
      number := fun _ => 60 }
  tokenization :=
    { configured := true
      poolContractConfigured := false
      platformAddress := .account 0
      address := fun _ => .account 1
      fromXDR := fun _ => some ⟨"hash", ⟨[.other], fun _ => true⟩⟩
      verify := fun _ _ _ => true
      stroops := fun _ => 600000000
      sha256 := fun _ => List.replicate 32 0
      centavos := fun _ => 6000
      u64 := fun n => .ok n.toNat }
  runtime := ⟨id, fun _ _ _ => false, fun _ => ""⟩
  wallets _ := some ⟨some "GPME", none⟩
  custodialUsers _ := none
  date _ := 0
  transferWithPlatform _ := none

def invoiceId : String := "aaaaaaaa-bbbb-cccc-dddd-eeeeeeeeeeee"

def withInvoice (status : ReceivableStatus) : CreditState Unit :=
  { chain := (), receivables := [{ toReceivable := ⟨invoiceId, "pme", 60, status, "debtor", "document", none, 0⟩ }] }

def receivableDone : Op CreditRequest CreditReply := .resume 0 (.receivable (.ok ⟨0, ""⟩))

/-- While one operator approves, another one rejects. -/
def rejectedMeanwhile : List (Op CreditRequest CreditReply) :=
  [.start (.receivable (.approveReceivable invoiceId "operator-1")),
    .start (.receivable (.rejectReceivable invoiceId "operator-2")), .resume 0 (.receivable (.ok ⟨0, ""⟩)),
    .resume 1 (.receivable (.ok ⟨0, ""⟩)), .resume 1 (.receivable (.ok ⟨0, ""⟩)), receivableDone]

/-- While an investor buys the receivable, its collection is paid. -/
def settledMeanwhile : List (Op CreditRequest CreditReply) :=
  .start (.purchase (.create "investor" ⟨invoiceId, "authorization", none⟩)) ::
    .start (.pix (.callback (.collection ⟨"event", "order", invoiceId, "identifier", "PAID", 60, none, none⟩))) ::
    List.replicate 6 (.resume 1 (.pix (.ok "1")))

/-- The rejected receivable is tokenized, and the settled one is active again. -/
theorem receivables_move_back :
    ¬MovesForward testCreditEnv ⟨withInvoice .pending, []⟩
        (rejectedMeanwhile ++ [receivableDone, receivableDone, receivableDone,
          .resume 0 (.receivable (.submitted .confirmed 0 "hash")), receivableDone]) ∧
      ¬MovesForward testCreditEnv ⟨withInvoice .active, []⟩
        (settledMeanwhile ++ [.resume 0 (.purchase { uuid := "investment" })]) := by
  refine ⟨fun h => absurd (FinalKept.status h.2.rel invoiceId (.other "rejected") ?_ ?_) ?_,
    fun h => absurd (FinalKept.status h.2.rel invoiceId (.other "settled") ?_ ?_) ?_⟩ <;> decide +kernel

end Examples
end CredBridge.Api
