import CredBridge.Theorems.ReceivableViews

/-! # Calls on receivables, by what they show of one

Each call on receivables either is about the receivable, and then goes on alike wherever the view is the same, or leaves
the view as it is. A request that its checks refuse leaves the view as it is too. -/

namespace CredBridge.Api
open Concurrent Contracts Result Submission

/-- The statement is about the receivable, or makes one. -/
def ReceivableStep.concerns (id : String) : ReceivableStep → Bool
  | .create .. => true
  | .validate rid _ | .reject rid _ | .findValidated rid | .setAssignmentPending rid => rid = id
  | .invokeTokenize r | .setTokenized r _ | .authorize r _ | .consume r _ | .invokeTransfer r _ | .setAssigned r _ _
  | .submitSigned r _ _ | .invokeBuy r _ _ | .setBought r _ _ | .createCollection r _ _ | .orderCollection r _ _ _
  | .setIdentifier r _ _ _ _ => r.id = id
  | .createDocument data => data.receivableId = id ∧ data.type = .invoice
  | .setDocumentHash data => data.receivableId = id
  | .done => false

/-- The statement names a row of the collections. -/
def ReceivableStep.draws : ReceivableStep → Bool
  | .createCollection .. | .orderCollection .. => true
  | _ => false

@[ext] structure CreditView extends PixView where
  authorizations : List FinancialAuthorization

section ReceivableCalls
variable {σ : Type} (runtime : Runtime) (id : String) (own : String → Bool) (user : String)

def creditView (s : CreditState σ) : CreditView where
  toPixView := pixView id own s.toPixState
  authorizations := authorizationsView own s.authorizations

def ReceivableStep.Apart : ReceivableStep → Prop
  | .authorize r _ => r.id = id → r.userId ≠ user
  | .consume r input => input.About id user r.id
  | .orderCollection r _ _ collectionId => own collectionId = decide (r.id = id)
  | .setIdentifier r _ _ collectionId identifier =>
    own collectionId = decide (r.id = id) ∧ own identifier = decide (r.id = id)
  | _ => True

structure CreditState.Apart (s : CreditState σ) : Prop where
  pix : s.toPixState.Apart id own user
  authorization : ∀ a ∈ s.authorizations.authorizations, a.Apart runtime id own user

/-- What comes after a statement is about the same receivable, and has in hand what is the receivable's. -/
structure ReceivableStep.Continues (step : ReceivableStep) (next : ReceivableCall) : Prop where
  apart : next.step.Apart id own user
  concerns : step.concerns id = false → next.step.concerns id = false

end ReceivableCalls

section ReceivableSteps
variable {σ : Type} {env : CreditEnv σ} {runtime : Runtime} {id user : String} {own : String → Bool} {s t : CreditState σ}
  {step : ReceivableStep} {drawn : Drawn}

theorem creditView_pix {s s' : CreditState σ} (hpix : pixView id own s'.toPixState = pixView id own s.toPixState)
    (hauthorizations : s'.authorizations = s.authorizations) : creditView id own s' = creditView id own s := by
  unfold creditView
  rw [hpix, hauthorizations]

theorem pix_of_view (h : creditView id own s = creditView id own t) :
    pixView id own s.toPixState = pixView id own t.toPixState :=
  congrArg CreditView.toPixView h

theorem authorizations_of_view (h : creditView id own s = creditView id own t) :
    authorizationsView own s.authorizations = authorizationsView own t.authorizations :=
  congrArg CreditView.authorizations h

theorem creditView_same (hpix : pixView id own s.toPixState = pixView id own t.toPixState)
    (hauthorizations : authorizationsView own s.authorizations = authorizationsView own t.authorizations) :
    creditView id own s = creditView id own t := by
  unfold creditView
  rw [hpix, hauthorizations]

theorem findReceivable_append (row : ReceivableRow) :
    ({ s with receivables := s.receivables ++ [row] } : CreditState σ).findReceivable id =
      (s.findReceivable id).or (if row.id = id then some row else none) := by
  unfold PixState.findReceivable Table.find
  rw [List.find?_append, List.find?_singleton]
  simp only [decide_eq_true_eq]

/-- A new receivable comes into view under the receivable's name, unless there is one. -/
theorem create_view (userId : String) (dto : CreateReceivableDto) :
    creditView id own ((ReceivableStep.create userId dto).execute env drawn s) =
      { creditView id own s with
        receivable := (creditView id own s).receivable.or
          (if drawn.uuid = id then some (newReceivable drawn.uuid userId dto (env.date dto.dueDate)) else none) } := by
  simp only [ReceivableStep.execute]
  split
  · next hsome =>
    refine CreditView.ext rfl ?_ rfl rfl
    show s.findReceivable id = (s.findReceivable id).or _
    split
    · next huuid =>
      rw [huuid] at hsome
      rw [Option.or_of_isSome hsome]
    · rw [Option.or_none]
  · exact CreditView.ext rfl (findReceivable_append _) rfl rfl

theorem creditView_updateReceivable {rid : String} {change : ReceivableRow → ReceivableRow}
    (hid : ∀ r, (change r).id = r.id) :
    creditView id own (s.updateReceivable rid change) =
      { creditView id own s with
        receivable := (creditView id own s).receivable.map fun r => if r.id = rid then change r else r } :=
  CreditView.ext rfl (congrArg PixView.receivable (pixView_updateReceivable hid)) rfl rfl

theorem creditView_updateCollection {cid : String} {change : ReceivableCollection → ReceivableCollection}
    (hid : ∀ c, (change c).id = c.id) :
    creditView id own { s with toPixState := s.toPixState.updateCollection cid change } =
      { creditView id own s with
        collections := Table.modify (·.id) cid change (creditView id own s).collections } :=
  CreditView.ext rfl rfl (congrArg PixView.collections (pixView_updateCollection hid)) rfl

theorem createCollection_view (r : ReceivableRow) (txHash poolTxHash : String) :
    creditView id own ((ReceivableStep.createCollection r txHash poolTxHash).execute env drawn s) =
      { creditView id own s with
        collections := (creditView id own s).collections ++
          [⟨drawn.uuid, r.id, none, "pending_payment", none, none, none⟩].filter (own ·.id) } :=
  CreditView.ext rfl rfl (List.filter_append _ _) rfl

theorem assignmentConsumption_about {r : ReceivableRow} {authorizationId : String} (h : r.id = id → r.userId ≠ user) :
    (assignmentConsumption env r authorizationId).About id user r.id := ⟨rfl, h⟩

/-! What a statement does to the view -/

theorem step_execute_same (hstep : step.concerns id) (hapart : step.Apart id own user)
    (hs : s.Apart runtime id own user) (ht : t.Apart runtime id own user)
    (h : creditView id own s = creditView id own t) :
    creditView id own (step.execute env drawn s) = creditView id own (step.execute env drawn t) := by
  have hreceivable : ∀ rid change, (∀ r : ReceivableRow, (change r).id = r.id) →
      creditView id own (s.updateReceivable rid change) = creditView id own (t.updateReceivable rid change) := by
    intro rid change hid
    rw [creditView_updateReceivable hid, creditView_updateReceivable hid, h]
  cases step with
  | create userId dto => rw [create_view, create_view, h]
  | validate | reject | setTokenized | setAssignmentPending | setAssigned | setBought | setDocumentHash =>
    exact hreceivable _ _ fun _ => rfl
  | consume r input =>
    have hpix := pix_of_view h
    have hinput : input.About id user id := of_decide_eq_true hstep ▸ hapart
    exact creditView_same hpix (setConsumed_same hs.authorization ht.authorization hinput (authorizations_of_view h))
  | createCollection r txHash poolTxHash => rw [createCollection_view, createCollection_view, h]
  | setIdentifier r txHash poolTxHash collectionId identifier =>
    simp only [ReceivableStep.execute]
    rw [creditView_updateCollection, creditView_updateCollection, h] <;> intro c <;> rfl
  | createDocument data =>
    simp only [ReceivableStep.execute]
    split <;> split <;> exact h
  | findValidated | authorize | invokeTokenize | invokeTransfer | submitSigned | invokeBuy | orderCollection => exact h
  | done => cases hstep

theorem step_execute_unseen (hstep : step.concerns id = false) (hapart : step.Apart id own user)
    (hs : s.Apart runtime id own user) (hdrawn : own drawn.uuid = false) :
    creditView id own (step.execute env drawn s) = creditView id own s := by
  have hreceivable : ∀ rid change, (∀ r : ReceivableRow, (change r).id = r.id) → rid ≠ id →
      creditView id own (s.updateReceivable rid change) = creditView id own s :=
    fun rid change hid hrid => creditView_pix (pixView_updateReceivable_of_ne hid hrid) rfl
  cases step with
  | create => cases hstep
  | validate | reject | setTokenized | setAssignmentPending | setAssigned | setBought | setDocumentHash =>
    exact hreceivable _ _ (fun _ => rfl) (of_decide_eq_false hstep)
  | consume r input =>
    exact creditView_same rfl (setConsumed_unseen hs.authorization hapart (of_decide_eq_false hstep))
  | createCollection r txHash poolTxHash =>
    refine creditView_pix (PixView.ext rfl rfl ?_) rfl
    simp [ReceivableStep.execute, pixView, hdrawn]
  | setIdentifier r txHash poolTxHash collectionId identifier =>
    refine creditView_pix ?_ rfl
    exact pixView_updateCollection_of_not_own (fun _ => rfl) (hapart.1.trans hstep)
  | createDocument data =>
    simp only [ReceivableStep.execute]
    split <;> rfl
  | findValidated | authorize | invokeTokenize | invokeTransfer | submitSigned | invokeBuy | orderCollection | done => rfl

/-! Where a call goes on -/

theorem receivableGoOn_snd (flow : ReceivableFlow) : (ReceivableCall.goOn s flow).2 = (ReceivableCall.goOn t flow).2 := by
  unfold ReceivableCall.goOn
  split <;> rfl

theorem checkStatus_same (h : creditView id own s = creditView id own t) (statuses : List ReceivableStatus)
    (missing refused : ApiError) : checkStatus s id statuses missing refused = checkStatus t id statuses missing refused := by
  unfold checkStatus
  rw [findReceivable_of_view (pix_of_view h)]

theorem authorize_proceed (r : ReceivableRow) (authorizationId : String) :
    (ReceivableStep.authorize r authorizationId).proceed env drawn s =
      match (checkConsumable s.authorizations (assignmentConsumption env r authorizationId) drawn.now).toOption with
      | none => .raised
      | some _ => .next { step := .consume r (assignmentConsumption env r authorizationId) } := by
  simp only [ReceivableStep.proceed]
  cases checkConsumable s.authorizations (assignmentConsumption env r authorizationId) drawn.now <;> rfl

theorem step_proceed_same (hcreate : ∀ userId dto, step ≠ .create userId dto) (hstep : step.concerns id)
    (hapart : step.Apart id own user) (hs : s.Apart runtime id own user) (ht : t.Apart runtime id own user)
    (h : creditView id own s = creditView id own t) : step.proceed env drawn s = step.proceed env drawn t := by
  cases step with
  | create userId dto => exact absurd rfl (hcreate userId dto)
  | findValidated rid =>
    obtain rfl : rid = id := of_decide_eq_true hstep
    simp only [ReceivableStep.proceed, checkValidated, checkStatus_same h]
  | authorize r authorizationId =>
    have hr : r.id = id := of_decide_eq_true hstep
    have hinput : (assignmentConsumption env r authorizationId).About id user id := by
      have habout : (assignmentConsumption env r authorizationId).About id user r.id := assignmentConsumption_about hapart
      rwa [hr] at habout
    rw [authorize_proceed, authorize_proceed,
      checkConsumable_same hs.authorization ht.authorization hinput (authorizations_of_view h)]
  | consume r input =>
    have hinput : input.About id user id := of_decide_eq_true hstep ▸ hapart
    have hfound : consumable s.authorizations input drawn.now = consumable t.authorizations input drawn.now :=
      consumable_same hs.authorization ht.authorization hinput (authorizations_of_view h)
    unfold consumable at hfound
    simp only [ReceivableStep.proceed, hfound]
  | createDocument data =>
    obtain ⟨hdata, -⟩ : data.receivableId = id ∧ data.type = .invoice := of_decide_eq_true hstep
    simp only [ReceivableStep.proceed, hdata, findReceivable_of_view (pix_of_view h)]
  | done => cases hstep
  | validate | reject | invokeTokenize | setTokenized | setAssignmentPending | invokeTransfer | setAssigned | submitSigned
  | invokeBuy | setBought | createCollection | orderCollection | setIdentifier | setDocumentHash => rfl

theorem create_proceed {userId : String} {dto : CreateReceivableDto} {next : ReceivableCall}
    (h : (ReceivableStep.create userId dto).proceed env drawn s = .next next) : next.step = .done := by
  simp only [ReceivableStep.proceed] at h
  split at h <;> cases h
  rfl

/-- A new receivable is seen as a row, and not as a call. -/
theorem create_goOn_unseen {s' : CreditState σ} {userId : String} {dto : CreateReceivableDto} :
    (ReceivableCall.goOn s' ((ReceivableStep.create userId dto).proceed env drawn s)).2.filter (·.step.concerns id) =
      none := by
  refine Option.filter_eq_none_iff.mpr fun next hnext => ?_
  rw [create_proceed (receivableGoOn_next hnext)]
  exact Bool.false_ne_true

theorem step_proceed_continues {next : ReceivableCall} (hapart : step.Apart id own user)
    (hdrawn : step.draws → own drawn.uuid = step.concerns id) (h : step.proceed env drawn s = .next next) :
    step.Continues id own user next := by
  cases step with
  | create userId dto =>
    have hnext := create_proceed h
    refine ⟨?_, fun _ => ?_⟩ <;> rw [hnext]
    · trivial
    · rfl
  | findValidated rid =>
    simp only [ReceivableStep.proceed, checkValidated, checkStatus] at h
    split at h
    · cases h
    · next r hr =>
      cases h
      obtain ⟨r', hfind, hr⟩ := orThrow_bind_eq_ok.mp hr
      obtain ⟨-, hr⟩ := throwIf_bind_eq_ok.mp hr
      obtain rfl := pure_eq_ok.mp hr
      exact ⟨trivial, fun hconcerns => by rw [← hconcerns, ← id_of_findReceivable hfind]; rfl⟩
  | authorize r authorizationId =>
    simp only [ReceivableStep.proceed] at h
    split at h <;> cases h
    exact ⟨assignmentConsumption_about hapart, fun hconcerns => hconcerns⟩
  | consume r input =>
    simp only [ReceivableStep.proceed] at h
    split at h <;> cases h
    exact ⟨trivial, fun hconcerns => hconcerns⟩
  | createCollection r txHash poolTxHash =>
    cases h
    exact ⟨hdrawn rfl, fun hconcerns => hconcerns⟩
  | orderCollection r txHash poolTxHash collectionId =>
    cases h
    exact ⟨⟨hapart, hdrawn rfl⟩, fun hconcerns => hconcerns⟩
  | createDocument data =>
    simp only [ReceivableStep.proceed] at h
    split at h
    · cases h
    · split at h
      · next htype =>
        cases h
        refine ⟨trivial, fun hconcerns => decide_eq_false fun hid => ?_⟩
        exact of_decide_eq_false hconcerns ⟨hid, htype⟩
      · cases h
        exact ⟨trivial, fun _ => rfl⟩
  | validate | setBought =>
    cases h
    exact ⟨trivial, fun hconcerns => hconcerns⟩
  | reject | setTokenized | setAssigned | setIdentifier | setAssignmentPending | setDocumentHash | done =>
    cases h
    exact ⟨trivial, fun _ => rfl⟩
  | invokeTokenize | invokeTransfer | submitSigned | invokeBuy => cases h

theorem step_rescue_continues {next : ReceivableCall} (h : step.rescue = .next next) : step.Continues id own user next := by
  cases step <;> cases h <;> exact ⟨trivial, fun _ => rfl⟩

theorem step_confirmed_continues {txHash : String} {next : ReceivableCall} (h : step.confirmed txHash = .next next) :
    step.Continues id own user next := by
  cases step <;> cases h <;> exact ⟨trivial, fun hconcerns => hconcerns⟩

/-! Rows keep their names -/

/-- What is drawn for a statement fits it: a row of the receivable's gets a name of the receivable's, and no other row does;
    and the receivable is not made for the user. -/
structure ReceivableStep.Drawing (id : String) (own : String → Bool) (user : String) (step : ReceivableStep)
    (drawn : Drawn) : Prop where
  named : step.draws → own drawn.uuid = step.concerns id
  owner : ∀ userId dto, step = .create userId dto → drawn.uuid = id → userId ≠ user

theorem CreditState.Apart.of_same {s' : CreditState σ} (hs : s.Apart runtime id own user)
    (hpix : s'.toPixState = s.toPixState) (hauthorizations : s'.authorizations = s.authorizations) :
    s'.Apart runtime id own user where
  pix := hpix ▸ hs.pix
  authorization := hauthorizations ▸ hs.authorization

theorem CreditState.Apart.audit (hs : s.Apart runtime id own user) (log : AuditLog) :
    (s.audit log).Apart runtime id own user where
  pix := hs.pix.of_same rfl rfl
  authorization := hs.authorization

theorem CreditState.Apart.landed (hs : s.Apart runtime id own user) (chain : σ) :
    (s.landed chain).Apart runtime id own user where
  pix := hs.pix.of_same rfl rfl
  authorization := hs.authorization

theorem CreditState.Apart.updateReceivable {rid : String} {change : ReceivableRow → ReceivableRow}
    (hs : s.Apart runtime id own user) (hid : ∀ r, (change r).id = r.id) (huser : ∀ r, (change r).userId = r.userId) :
    (s.updateReceivable rid change).Apart runtime id own user where
  pix := hs.pix.updateReceivable hid huser
  authorization := hs.authorization

theorem CreditState.Apart.updateIdentifier {cid identifier : String} (hs : s.Apart runtime id own user)
    (hown : own identifier = own cid) :
    CreditState.Apart runtime id own user
      { s with toPixState := s.toPixState.updateCollection cid ({ · with identifier := some identifier }) } where
  pix := by
    refine hs.pix.updateCollection (fun _ => rfl) (fun _ => rfl) fun c _ hcid i hi => ?_
    rw [← Option.mem_some.mp hi, hown, hcid]
  authorization := hs.authorization

theorem step_execute_apart (hapart : step.Apart id own user) (hdrawing : step.Drawing id own user drawn)
    (hs : s.Apart runtime id own user) : (step.execute env drawn s).Apart runtime id own user := by
  cases step with
  | create userId dto =>
    simp only [ReceivableStep.execute]
    split
    · exact hs
    · refine { pix := { owner := fun row hrow => ?_, collection := hs.pix.collection }, authorization := hs.authorization }
      rw [findReceivable_append] at hrow
      rcases Option.or_eq_some_iff.mp hrow with hrow | ⟨-, hrow⟩
      · exact hs.pix.owner row hrow
      · split at hrow
        · next huuid =>
          cases hrow
          exact hdrawing.owner userId dto rfl huuid
        · cases hrow
  | validate | reject | setTokenized | setAssignmentPending | setAssigned | setBought | setDocumentHash =>
    exact hs.updateReceivable (fun _ => rfl) fun _ => rfl
  | consume r input => exact { pix := hs.pix, authorization := setConsumed_apart hs.authorization }
  | createCollection r txHash poolTxHash =>
    refine { pix := { owner := hs.pix.owner, collection := fun c hc => ?_ }, authorization := hs.authorization }
    rcases List.mem_append.mp hc with hc | hc
    · exact hs.pix.collection c hc
    · obtain rfl := List.mem_singleton.mp hc
      exact ⟨hdrawing.named rfl, fun i hi => absurd hi (Option.not_mem_none i)⟩
  | setIdentifier r txHash poolTxHash collectionId identifier => exact hs.updateIdentifier (hapart.2.trans hapart.1.symm)
  | createDocument data =>
    simp only [ReceivableStep.execute]
    split <;> exact hs.of_same rfl rfl
  | orderCollection => exact hs.of_same rfl rfl
  | findValidated | authorize | invokeTokenize | invokeTransfer | submitSigned | invokeBuy | done => exact hs

/-! An answer -/

def ReceivableReply.drawn? : ReceivableReply → Option Drawn
  | .ok drawn => some drawn
  | .threw executed => executed
  | .submitted .. => none

variable {call : ReceivableCall} {reply : ReceivableReply}

theorem goOn_continues {flow : ReceivableFlow} (hs : s.Apart runtime id own user)
    (hflow : ∀ next, flow = .next next → step.Continues id own user next) :
    (ReceivableCall.goOn s flow).1.Apart runtime id own user ∧
      ∀ next ∈ (ReceivableCall.goOn s flow).2, step.Continues id own user next :=
  ⟨receivableGoOn_fst flow ▸ hs, fun _ hnext => hflow _ (receivableGoOn_next hnext)⟩

theorem resumeReceivable_continues (hapart : call.step.Apart id own user)
    (hdrawing : call.logs = [] → ∀ drawn ∈ reply.drawn?, call.step.Drawing id own user drawn)
    (hs : s.Apart runtime id own user) :
    (resumeReceivable env call reply s).1.Apart runtime id own user ∧
      ∀ next ∈ (resumeReceivable env call reply s).2, call.step.Continues id own user next := by
  cases resumeReceivable_resumed env call reply s with
  | waits call reply _ hr =>
    rw [hr]
    refine ⟨hs, fun next hnext => ?_⟩
    obtain rfl := Option.mem_some.mp hnext
    exact ⟨hapart, fun hconcerns => hconcerns⟩
  | logged log logs step drawn hr =>
    rw [hr]
    refine goOn_continues (hs.audit log) fun next hnext => ?_
    cases hnext
    exact ⟨hapart, fun hconcerns => hconcerns⟩
  | unlogged log logs step executed hr =>
    rw [hr]
    refine goOn_continues ?_ fun _ => step_rescue_continues
    cases executed with
    | none => exact hs
    | some drawn => exact hs.audit log
  | ok step drawn hr =>
    rw [hr]
    have hstep := hdrawing rfl drawn rfl
    exact goOn_continues (step_execute_apart hapart hstep hs) fun _ => step_proceed_continues hapart hstep.named
  | threw step executed hr =>
    rw [hr]
    refine goOn_continues ?_ fun _ => step_rescue_continues
    cases executed with
    | none => exact hs
    | some drawn => exact step_execute_apart hapart (hdrawing rfl drawn rfl) hs
  | never step fate time txHash hr =>
    rw [hr]
    exact goOn_continues hs fun _ => step_rescue_continues
  | late step fate time txHash tx chain _ _ hr =>
    rw [hr]
    exact goOn_continues (hs.landed chain) fun _ => step_rescue_continues
  | confirmed step fate time txHash tx chain _ _ hr =>
    rw [hr]
    exact goOn_continues (hs.landed chain) fun _ => step_confirmed_continues

/-- No call comes to make a receivable but from its start. -/
theorem resumeReceivable_create {next : ReceivableCall} {userId : String} {dto : CreateReceivableDto}
    (h : next ∈ (resumeReceivable env call reply s).2) (hnext : next.step = .create userId dto) :
    call.step = .create userId dto := by
  have hproceed : ∀ {step : ReceivableStep} {drawn : Drawn} {s : CreditState σ},
      step.proceed env drawn s ≠ .next next := by
    intro step drawn s hflow
    cases step with
    | create | findValidated | authorize | consume =>
      simp only [ReceivableStep.proceed] at hflow
      split at hflow <;> cases hflow
      cases hnext
    | createDocument data =>
      simp only [ReceivableStep.proceed] at hflow
      split at hflow
      · cases hflow
      · split at hflow <;> (cases hflow; cases hnext)
    | _ => cases hflow <;> cases hnext
  have hrescue : ∀ {step : ReceivableStep}, step.rescue ≠ .next next := by
    intro step hflow
    cases step <;> cases hflow <;> cases hnext
  have hconfirmed : ∀ {step : ReceivableStep} {txHash : String}, step.confirmed txHash ≠ .next next := by
    intro step txHash hflow
    cases step <;> cases hflow <;> cases hnext
  cases resumeReceivable_resumed env call reply s with
  | waits call reply _ hr =>
    rw [hr] at h
    obtain rfl := Option.mem_some.mp h
    exact hnext
  | logged log logs step drawn hr =>
    rw [hr] at h
    obtain rfl : (⟨logs, step⟩ : ReceivableCall) = next := ReceivableFlow.next.inj (receivableGoOn_next h)
    exact hnext
  | ok step drawn hr =>
    rw [hr] at h
    exact absurd (receivableGoOn_next h) hproceed
  | unlogged _ _ _ _ hr | threw _ _ hr | never _ _ _ _ hr | late _ _ _ _ _ _ _ _ hr =>
    rw [hr] at h
    exact absurd (receivableGoOn_next h) hrescue
  | confirmed _ _ _ _ _ _ _ _ hr =>
    rw [hr] at h
    exact absurd (receivableGoOn_next h) hconfirmed

@[simp] theorem creditView_audit (log : AuditLog) : creditView id own (s.audit log) = creditView id own s := rfl

@[simp] theorem creditView_landed (chain : σ) : creditView id own (s.landed chain) = creditView id own s := rfl

theorem creditView_goOn (flow : ReceivableFlow) : creditView id own (ReceivableCall.goOn s flow).1 = creditView id own s :=
  congrArg (creditView id own) (receivableGoOn_fst flow)

/-- A call that is not about the receivable leaves the view as it is. -/
theorem resumeReceivable_unseen (hcall : call.step.concerns id = false) (hapart : call.step.Apart id own user)
    (hdrawn : ∀ drawn ∈ reply.drawn?, own drawn.uuid = false) (hs : s.Apart runtime id own user) :
    creditView id own (resumeReceivable env call reply s).1 = creditView id own s := by
  cases resumeReceivable_resumed env call reply s with
  | waits call reply _ hr => rw [hr]
  | logged log logs step drawn hr => rw [hr, creditView_goOn, creditView_audit]
  | unlogged log logs step executed hr =>
    rw [hr, creditView_goOn]
    cases executed <;> rfl
  | ok step drawn hr =>
    rw [hr, creditView_goOn]
    exact step_execute_unseen hcall hapart hs (hdrawn drawn rfl)
  | threw step executed hr =>
    rw [hr, creditView_goOn]
    cases executed with
    | none => rfl
    | some drawn => exact step_execute_unseen hcall hapart hs (hdrawn drawn rfl)
  | never step fate time txHash hr => rw [hr, creditView_goOn]
  | late step fate time txHash tx chain _ _ hr | confirmed step fate time txHash tx chain _ _ hr =>
    rw [hr, creditView_goOn, creditView_landed]

/-- A call about the receivable goes on alike in two states with the same view, where the chain is the same. -/
theorem resumeReceivable_same (hcall : call.step.concerns id) (hapart : call.step.Apart id own user)
    (hs : s.Apart runtime id own user) (ht : t.Apart runtime id own user) (hchain : s.chain = t.chain)
    (h : creditView id own s = creditView id own t) :
    creditView id own (resumeReceivable env call reply s).1 = creditView id own (resumeReceivable env call reply t).1 ∧
      (resumeReceivable env call reply s).2.filter (·.step.concerns id) =
        (resumeReceivable env call reply t).2.filter (·.step.concerns id) := by
  have hgoOn : ∀ {s' t' : CreditState σ} (flow : ReceivableFlow), creditView id own s' = creditView id own t' →
      creditView id own (ReceivableCall.goOn s' flow).1 = creditView id own (ReceivableCall.goOn t' flow).1 ∧
        (ReceivableCall.goOn s' flow).2.filter (·.step.concerns id) =
          (ReceivableCall.goOn t' flow).2.filter (·.step.concerns id) := fun flow hview =>
    ⟨by rwa [creditView_goOn, creditView_goOn], congrArg _ (receivableGoOn_snd flow)⟩
  obtain ⟨_ | ⟨log, logs⟩, step⟩ := call
  · have hexecute : ∀ drawn, creditView id own (step.execute env drawn s) = creditView id own (step.execute env drawn t) :=
      fun drawn => step_execute_same hcall hapart hs ht h
    cases reply with
    | ok drawn =>
      cases hsubmits : step.submits env with
      | some submission =>
        simp only [resumeReceivable, ReceivableStep.resume, hsubmits]
        exact ⟨h, trivial⟩
      | none =>
        simp only [resumeReceivable, ReceivableStep.resume, hsubmits]
        by_cases hcreate : ∃ userId dto, step = .create userId dto
        · obtain ⟨userId, dto, rfl⟩ := hcreate
          refine ⟨by rw [creditView_goOn, creditView_goOn]; exact hexecute drawn, ?_⟩
          rw [create_goOn_unseen, create_goOn_unseen]
        · rw [step_proceed_same (fun userId dto heq => hcreate ⟨userId, dto, heq⟩) hcall hapart hs ht h]
          exact hgoOn _ (hexecute drawn)
    | threw executed =>
      simp only [resumeReceivable, ReceivableStep.resume]
      cases executed with
      | none => exact hgoOn _ h
      | some drawn => exact hgoOn _ (hexecute drawn)
    | submitted fate time txHash =>
      rcases hsubmits : step.submits env with _ | _ | tx
      · simp only [resumeReceivable, ReceivableStep.resume, hsubmits]
        exact ⟨h, trivial⟩
      · simp only [resumeReceivable, ReceivableStep.resume, hsubmits]
        exact hgoOn _ h
      · simp only [resumeReceivable, ReceivableStep.resume, hsubmits, ReceivableStep.submit, hchain]
        cases land (env.pix.execute time tx t.chain) fate with
        | never => exact hgoOn _ h
        | late chain | inTime chain => exact hgoOn _ (by rwa [creditView_landed, creditView_landed])
  · cases reply with
    | ok drawn => exact hgoOn _ (by rwa [creditView_audit, creditView_audit])
    | threw executed =>
      cases executed with
      | none => exact hgoOn _ h
      | some drawn => exact hgoOn _ (by rwa [← creditView_audit log, ← creditView_audit (s := t) log] at h)
    | submitted fate time txHash => exact ⟨h, rfl⟩

/-! A call that is refused in time -/

/-- The call writes nothing of the receivable yet: it is about another one, makes one, or asks for the authorization. -/
inductive ReceivableStep.Harmless (id : String) : ReceivableStep → Prop where
  | elsewhere (step : ReceivableStep) (h : step.concerns id = false) : Harmless id step
  | create (userId : String) (dto : CreateReceivableDto) : Harmless id (.create userId dto)
  | authorize (r : ReceivableRow) (authorizationId : String) : Harmless id (.authorize r authorizationId)

theorem harmless_draws (hharmless : step.Harmless id) (hdraws : step.draws) : step.concerns id = false := by
  cases hharmless with
  | elsewhere step h => exact h
  | create | authorize => cases hdraws

/-- The authorization for the receivable that the statement asks for is refused. -/
def ReceivableStep.Unauthorized (env : CreditEnv σ) (id : String) (s : CreditState σ) (drawn : Drawn) : ReceivableStep → Prop
  | .authorize r authorizationId =>
    r.id = id → (checkConsumable s.authorizations (assignmentConsumption env r authorizationId) drawn.now).toOption = none
  | _ => True

theorem harmless_execute (hharmless : step.Harmless id) (hapart : step.Apart id own user) (hs : s.Apart runtime id own user)
    (hid : own id = true) (hdrawn : own drawn.uuid = false) :
    creditView id own (step.execute env drawn s) = creditView id own s := by
  cases hharmless with
  | elsewhere step h => exact step_execute_unseen h hapart hs hdrawn
  | create userId dto =>
    have huuid : drawn.uuid ≠ id := fun h => by rw [h, hid] at hdrawn; cases hdrawn
    rw [create_view, if_neg huuid, Option.or_none]
  | authorize => rfl

theorem harmless_proceed {next : ReceivableCall} (hharmless : step.Harmless id)
    (hunauthorized : step.Unauthorized env id s drawn) (hnext : step.proceed env drawn s = .next next)
    (hcontinues : step.Continues id own user next) : next.step.Harmless id := by
  cases hharmless with
  | elsewhere step h => exact .elsewhere _ (hcontinues.concerns h)
  | create userId dto => exact create_proceed hnext ▸ .elsewhere _ rfl
  | authorize r authorizationId =>
    by_cases hr : r.id = id
    · rw [authorize_proceed, hunauthorized hr] at hnext
      cases hnext
    · exact .elsewhere _ (hcontinues.concerns (decide_eq_false hr))

theorem harmless_rescue {next : ReceivableCall} (hharmless : step.Harmless id) (hnext : step.rescue = .next next)
    (hcontinues : step.Continues id own user next) : next.step.Harmless id := by
  cases hharmless with
  | elsewhere step h => exact .elsewhere _ (hcontinues.concerns h)
  | create | authorize => cases hnext

theorem harmless_confirmed {next : ReceivableCall} {txHash : String} (hharmless : step.Harmless id)
    (hnext : step.confirmed txHash = .next next) (hcontinues : step.Continues id own user next) :
    next.step.Harmless id := by
  cases hharmless with
  | elsewhere step h => exact .elsewhere _ (hcontinues.concerns h)
  | create | authorize => cases hnext

theorem resumeReceivable_harmless (hharmless : call.step.Harmless id) (hapart : call.step.Apart id own user)
    (hid : own id = true) (hdrawn : ∀ drawn ∈ reply.drawn?, own drawn.uuid = false)
    (hunauthorized : ∀ drawn ∈ reply.drawn?, call.step.Unauthorized env id s drawn) (hs : s.Apart runtime id own user)
    (hcontinues : ∀ next ∈ (resumeReceivable env call reply s).2, call.step.Continues id own user next) :
    creditView id own (resumeReceivable env call reply s).1 = creditView id own s ∧
      ∀ next ∈ (resumeReceivable env call reply s).2, next.step.Harmless id := by
  have hgoOn : ∀ {s' : CreditState σ} {flow : ReceivableFlow}, creditView id own s' = creditView id own s →
      (∀ next, flow = .next next → next.step.Harmless id) →
      creditView id own (ReceivableCall.goOn s' flow).1 = creditView id own s ∧
        ∀ next ∈ (ReceivableCall.goOn s' flow).2, next.step.Harmless id := fun hview hflow =>
    ⟨(creditView_goOn _).trans hview, fun next hnext => hflow next (receivableGoOn_next hnext)⟩
  have hrescue : ∀ {step : ReceivableStep}, step.Harmless id → ∀ next, step.rescue = .next next → next.step.Harmless id := by
    intro step hharmless next h
    have hnext : step.Continues id own user next := step_rescue_continues h
    exact harmless_rescue hharmless h hnext
  have hconfirmed : ∀ {step : ReceivableStep} {txHash : String}, step.Harmless id →
      ∀ next, step.confirmed txHash = .next next → next.step.Harmless id := by
    intro step txHash hharmless next h
    have hnext : step.Continues id own user next := step_confirmed_continues h
    exact harmless_confirmed hharmless h hnext
  cases resumeReceivable_resumed env call reply s with
  | waits call reply _ hr =>
    rw [hr]
    refine ⟨rfl, fun next hnext => ?_⟩
    obtain rfl := Option.mem_some.mp hnext
    exact hharmless
  | logged log logs step drawn hr =>
    rw [hr]
    refine hgoOn rfl fun next hnext => ?_
    cases hnext
    exact hharmless
  | unlogged log logs step executed hr =>
    rw [hr]
    exact hgoOn (by cases executed <;> rfl) (hrescue hharmless)
  | ok step drawn hr =>
    have hview : creditView id own (step.execute env drawn s) = creditView id own s :=
      harmless_execute hharmless hapart hs hid (hdrawn drawn rfl)
    refine ⟨by rw [hr, creditView_goOn, hview], fun next hnext => ?_⟩
    have hcontinues := hcontinues next hnext
    rw [hr] at hnext
    exact harmless_proceed hharmless (hunauthorized drawn rfl) (receivableGoOn_next hnext) hcontinues
  | threw step executed hr =>
    rw [hr]
    refine hgoOn ?_ (hrescue hharmless)
    cases executed with
    | none => rfl
    | some drawn => exact harmless_execute hharmless hapart hs hid (hdrawn drawn rfl)
  | never step fate time txHash hr =>
    rw [hr]
    exact hgoOn rfl (hrescue hharmless)
  | late step fate time txHash tx chain _ _ hr =>
    rw [hr]
    exact hgoOn rfl (hrescue hharmless)
  | confirmed step fate time txHash tx chain _ _ hr =>
    rw [hr]
    exact hgoOn rfl (hconfirmed hharmless)

/-! A request -/

variable {request : ReceivableRequest}

/-- The request names the receivable, or makes one. -/
def ReceivableRequest.About (id : String) : ReceivableRequest → Prop
  | .create .. => True
  | .approveReceivable rid _ | .rejectReceivable rid _ | .tokenize rid | .requestAssignment rid | .assign rid _
  | .submitAssignment rid _ _ => rid = id
  | .createDocument data => data.receivableId = id
  | .transact .. => False

/-- A request that names the receivable is refused by what is checked before it waits: the status, the wallet of the
    receivable's owner and its signature. No invoice is uploaded for it. -/
def ReceivableRequest.Refused (env : CreditEnv σ) (id : String) (s : CreditState σ) : ReceivableRequest → Prop
  | .tokenize rid => rid = id → (checkValidated s id).toOption = none
  | .requestAssignment rid => rid = id → (checkTokenized s id).toOption = none
  | .submitAssignment rid unsignedXdr signatureHex =>
    rid = id → (checkSubmission env s id unsignedXdr signatureHex).toOption = none
  | .createDocument data => ¬(data.receivableId = id ∧ data.type = .invoice)
  | .create .. | .approveReceivable .. | .rejectReceivable .. | .assign .. | .transact .. => True

theorem checkStatus_ok {rid : String} {statuses : List ReceivableStatus} {missing refused : ApiError} {r : ReceivableRow}
    (h : (checkStatus s rid statuses missing refused).toOption = some r) : s.findReceivable rid = some r := by
  cases hcheck : checkStatus s rid statuses missing refused with
  | error e =>
    rw [hcheck] at h
    cases h
  | ok r' =>
    rw [hcheck] at h
    cases h
    obtain ⟨r', hfind, hcheck⟩ := orThrow_bind_eq_ok.mp hcheck
    obtain ⟨-, hcheck⟩ := throwIf_bind_eq_ok.mp hcheck
    obtain rfl := pure_eq_ok.mp hcheck
    exact hfind

theorem checkSubmission_ok {rid unsignedXdr signatureHex : String} {step : ReceivableStep}
    (h : (checkSubmission env s rid unsignedXdr signatureHex).toOption = some step) :
    ∃ r wallet tx, s.findReceivable rid = some r ∧ step = .submitSigned r wallet tx := by
  cases hcheck : checkSubmission env s rid unsignedXdr signatureHex with
  | error e =>
    rw [hcheck] at h
    cases h
  | ok step' =>
    rw [hcheck] at h
    cases h
    unfold checkSubmission at hcheck
    obtain ⟨r, hr, hcheck⟩ := bind_eq_ok.mp hcheck
    obtain ⟨wallet, -, hcheck⟩ := bind_eq_ok.mp hcheck
    obtain ⟨tx, -, hcheck⟩ := bind_eq_ok.mp hcheck
    obtain rfl := pure_eq_ok.mp hcheck
    exact ⟨r, wallet, tx, checkStatus_ok (congrArg Except.toOption hr), rfl⟩

/-- What a request waits for first, as far as the receivable it names goes. -/
inductive ReceivableStarted (s : CreditState σ) : ReceivableRequest → ReceivableStep → Prop where
  | create (userId : String) (dto : CreateReceivableDto) : ReceivableStarted s (.create userId dto) (.create userId dto)
  | validate (rid operatorId : String) : ReceivableStarted s (.approveReceivable rid operatorId) (.validate rid operatorId)
  | reject (rid operatorId : String) : ReceivableStarted s (.rejectReceivable rid operatorId) (.reject rid operatorId)
  | tokenize (rid : String) (r : ReceivableRow) (hr : s.findReceivable rid = some r) :
    ReceivableStarted s (.tokenize rid) (.invokeTokenize r)
  | requestAssignment (rid : String) : ReceivableStarted s (.requestAssignment rid) (.setAssignmentPending rid)
  | assign (rid authorizationId : String) (r : ReceivableRow) (hr : s.findReceivable rid = some r) :
    ReceivableStarted s (.assign rid authorizationId) (.authorize r authorizationId)
  | submitAssignment (rid unsignedXdr signatureHex : String) (r : ReceivableRow) (wallet : String) (tx : SignedTx)
      (hr : s.findReceivable rid = some r) :
    ReceivableStarted s (.submitAssignment rid unsignedXdr signatureHex) (.submitSigned r wallet tx)
  | createDocument (data : CreateDocumentDto) : ReceivableStarted s (.createDocument data) (.createDocument data)

theorem startReceivable_started {call : ReceivableCall} (h : call ∈ (startReceivable env request s).2) :
    ReceivableStarted s request call.step := by
  cases request with
  | create | createDocument =>
    cases h
    constructor
  | approveReceivable rid operatorId | rejectReceivable rid operatorId | requestAssignment rid =>
    obtain ⟨r, -, rfl⟩ := Option.map_eq_some_iff.mp h
    constructor
  | tokenize rid | assign rid authorizationId =>
    obtain ⟨r, hr, rfl⟩ := Option.map_eq_some_iff.mp h
    constructor
    exact checkStatus_ok hr
  | submitAssignment rid unsignedXdr signatureHex =>
    obtain ⟨step, hstep, rfl⟩ := Option.map_eq_some_iff.mp h
    obtain ⟨r, wallet, tx, hr, rfl⟩ := checkSubmission_ok hstep
    exact .submitAssignment rid unsignedXdr signatureHex r wallet tx hr
  | transact => cases h

theorem ReceivableStarted.about (h : ReceivableStarted s request step) (hstep : step.concerns id) : request.About id := by
  cases h with
  | create => trivial
  | createDocument data => exact (of_decide_eq_true hstep).1
  | validate rid | reject rid | requestAssignment rid =>
    have hid : rid = id := of_decide_eq_true hstep
    exact hid
  | tokenize _ _ hr | assign _ _ _ hr | submitAssignment _ _ _ _ _ _ hr =>
    exact (id_of_findReceivable hr).symm.trans (of_decide_eq_true hstep)

theorem ReceivableStarted.apart (h : ReceivableStarted s request step) (hs : s.Apart runtime id own user) :
    step.Apart id own user := by
  cases h with
  | assign rid authorizationId r hr =>
    intro hid
    rw [← id_of_findReceivable hr, hid] at hr
    exact hs.pix.owner r hr
  | create | validate | reject | tokenize | requestAssignment | submitAssignment | createDocument => trivial

theorem startReceivable_view : creditView id own (startReceivable env request s).1 = creditView id own s := by
  cases request with
  | transact time tx =>
    simp only [startReceivable]
    cases (env.pix.execute time tx s.chain).toOption <;> rfl
  | _ => rfl

theorem startReceivable_apart (hs : s.Apart runtime id own user) :
    (startReceivable env request s).1.Apart runtime id own user := by
  cases request with
  | transact time tx =>
    simp only [startReceivable]
    cases (env.pix.execute time tx s.chain).toOption with
    | none => exact hs
    | some chain => exact hs.landed chain
  | _ => exact hs

/-- A request is taken alike in two states with the same view, as far as it is about the receivable. -/
theorem startReceivable_same (h : creditView id own s = creditView id own t) :
    (startReceivable env request s).2.filter (·.step.concerns id) =
      (startReceivable env request t).2.filter (·.step.concerns id) := by
  by_cases habout : request.About id
  · refine congrArg _ ?_
    cases request with
    | create | createDocument | transact => rfl
    | approveReceivable rid | rejectReceivable rid =>
      obtain rfl : rid = id := habout
      simp only [startReceivable, checkPending, checkStatus_same h]
    | tokenize rid =>
      obtain rfl : rid = id := habout
      simp only [startReceivable, checkValidated, checkStatus_same h]
    | requestAssignment rid =>
      obtain rfl : rid = id := habout
      simp only [startReceivable, checkTokenized, checkStatus_same h]
    | assign rid =>
      obtain rfl : rid = id := habout
      simp only [startReceivable, checkAssignable, checkStatus_same h]
    | submitAssignment rid =>
      obtain rfl : rid = id := habout
      simp only [startReceivable, checkSubmission, checkAssignable, checkStatus_same h]
  · have hnone : ∀ s : CreditState σ, (startReceivable env request s).2.filter (·.step.concerns id) = none := fun s =>
      Option.filter_eq_none_iff.mpr fun call hcall hconcerns => habout ((startReceivable_started hcall).about hconcerns)
    rw [hnone, hnone]

/-- A refused request is refused, or asks for the authorization first. -/
theorem startReceivable_harmless (hrefused : request.Refused env id s)
    (hoperator : ∀ rid operatorId, request ≠ .approveReceivable rid operatorId ∧ request ≠ .rejectReceivable rid operatorId) :
    ∀ call ∈ (startReceivable env request s).2, call.step.Harmless id := by
  intro call hcall
  cases hconcerns : call.step.concerns id with
  | false => exact .elsewhere _ hconcerns
  | true =>
    have hstarted := startReceivable_started hcall
    have habout := hstarted.about hconcerns
    cases request with
    | approveReceivable rid operatorId => exact absurd rfl (hoperator rid operatorId).1
    | rejectReceivable rid operatorId => exact absurd rfl (hoperator rid operatorId).2
    | create userId dto =>
      cases hcall
      exact .create userId dto
    | assign rid authorizationId =>
      obtain ⟨r, -, rfl⟩ := Option.map_eq_some_iff.mp hcall
      exact .authorize r authorizationId
    | tokenize rid | requestAssignment rid | submitAssignment rid =>
      obtain ⟨r, hr, -⟩ := Option.map_eq_some_iff.mp hcall
      obtain rfl : rid = id := habout
      rw [hrefused rfl] at hr
      cases hr
    | createDocument data =>
      cases hcall
      exact absurd (of_decide_eq_true hconcerns) hrefused
    | transact => cases hcall

end ReceivableSteps
end CredBridge.Api
