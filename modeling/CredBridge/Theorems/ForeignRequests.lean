import CredBridge.Lib.Noninterference
import CredBridge.Theorems.AuthorizationOnce
import CredBridge.Theorems.ForwardReceivables
import CredBridge.Theorems.ReceivableCalls

/-! # Requests of someone else

What a run leaves of a receivable is not the same without the requests of a user who has nothing to do with it: no
endpoint asks who owns the receivable that it writes. Where each request of such a user about the receivable is refused
by the checks on statuses, authorizations and signatures, nothing tells of that user's requests. -/

namespace CredBridge.Api
open Concurrent Contracts Machine Result Submission

/-! ### Authorizations that are asked for -/

section Writes
variable (id : String) (own : String → Bool) (user : String)

def AuthorizationWrite.concerns : AuthorizationWrite → Bool
  | .create payload _ => payload.resourceId = some id ∧ payload.userId ≠ user
  | .setVerified aid _ _ => own aid
  | .setConsumed _ => false

/-- An authorization is consumed within other calls. -/
def AuthorizationWrite.Apart : AuthorizationWrite → Prop
  | .create payload _ => own payload.nonce = decide (payload.resourceId = some id ∧ payload.userId ≠ user)
  | .setVerified .. => True
  | .setConsumed _ => False

end Writes

section Authorizations
variable {runtime : Runtime} {stellarNetwork : Option String} {id user : String} {own : String → Bool}
  {s t : AuthorizationStore} {w : AuthorizationWrite} {drawn : Drawn}

theorem hashPayload_injective (hsha : Function.Injective runtime.sha256) : Function.Injective (hashPayload runtime) := by
  intro p q h
  refine payloadDigest_injective runtime hsha ?_
  have hdecode := congrArg (fun text : String => Hex.decode text.toList) h
  simpa only [hashPayload, String.toList_ofList, Hex.decode_encode] using hdecode

/-- What a new row of the receivable's clashes with is in view. -/
theorem any_clash_of_own (hsha : Function.Injective runtime.sha256)
    (hs : ∀ a ∈ s.authorizations, a.Apart runtime id own user) {payload : FinancialAuthorizationPayload}
    {aid : String} (haid : own aid = true) (hnonce : own payload.nonce = true) :
    s.authorizations.any (fun r => r.id = aid ∨ r.nonce = payload.nonce ∨ r.payloadHash = hashPayload runtime payload) =
      (authorizationsView own s).any fun r =>
        r.id = aid ∨ r.nonce = payload.nonce ∨ r.payloadHash = hashPayload runtime payload := by
  refine Bool.eq_iff_iff.mpr ?_
  simp only [List.any_eq_true, authorizationsView, List.mem_filter, and_assoc]
  refine exists_congr fun a => and_congr_right fun ha => ?_
  refine (and_iff_right_of_imp fun hclash => ?_).symm
  have hapart := hs a ha
  obtain haid' | hnonce' | hhash := of_decide_eq_true hclash
  · rw [haid', haid]
  · rw [← hapart.nonce, hnonce', hnonce]
  · have hpayload := hashPayload_injective hsha (hapart.payloadHash.symm.trans hhash)
    rw [← hapart.nonce, ← hapart.payloadNonce, hpayload, hnonce]

theorem create_eq (payload : FinancialAuthorizationPayload) (expiresAt : Int) :
    s.create (challengeRow runtime payload expiresAt drawn.uuid) =
      if s.authorizations.any (fun r => r.id = drawn.uuid ∨ r.nonce = payload.nonce ∨
        r.payloadHash = hashPayload runtime payload) then s
      else
        { authorizations := s.authorizations ++ [challengeRow runtime payload expiresAt drawn.uuid]
          journal := .created drawn.uuid payload.userId payload expiresAt :: s.journal } := rfl

theorem write_apply_same (hsha : Function.Injective runtime.sha256)
    (hs : ∀ a ∈ s.authorizations, a.Apart runtime id own user) (ht : ∀ a ∈ t.authorizations, a.Apart runtime id own user)
    (hw : w.concerns id own user) (hapart : w.Apart id own user)
    (hdrawn : ∀ payload expiresAt, w = .create payload expiresAt → own drawn.uuid = true)
    (h : authorizationsView own s = authorizationsView own t) :
    authorizationsView own (w.apply runtime drawn s) = authorizationsView own (w.apply runtime drawn t) := by
  cases w with
  | create payload expiresAt =>
    have hnonce : own payload.nonce = true := hapart.trans hw
    have huuid := hdrawn payload expiresAt rfl
    simp only [AuthorizationWrite.apply, create_eq, any_clash_of_own hsha hs huuid hnonce,
      any_clash_of_own hsha ht huuid hnonce, h]
    split
    · exact h
    · unfold authorizationsView at h ⊢
      rw [List.filter_append, List.filter_append, h]
  | setVerified aid assertion signature =>
    simp only [AuthorizationWrite.apply, AuthorizationStore.setVerified, findAuthorization_of_view h hw]
    split
    · exact h
    · rw [authorizationsView_modify, authorizationsView_modify, h] <;> intro a <;> rfl
  | setConsumed input => exact False.elim hapart

theorem write_apply_unseen (hw : w.concerns id own user = false) (hapart : w.Apart id own user)
    (hdrawn : own drawn.uuid = false) : authorizationsView own (w.apply runtime drawn s) = authorizationsView own s := by
  cases w with
  | create payload expiresAt =>
    simp only [AuthorizationWrite.apply, create_eq]
    split
    · rfl
    · simp [authorizationsView, challengeRow, hdrawn]
  | setVerified aid assertion signature =>
    simp only [AuthorizationWrite.apply, AuthorizationStore.setVerified]
    split
    · rfl
    · refine (authorizationsView_modify ?_).trans (modify_view_of_not_own hw)
      exact fun _ => rfl
  | setConsumed input => exact False.elim hapart

theorem write_apply_apart (hs : ∀ a ∈ s.authorizations, a.Apart runtime id own user) (hapart : w.Apart id own user)
    (hdrawn : ∀ payload expiresAt, w = .create payload expiresAt → own drawn.uuid = w.concerns id own user) :
    ∀ a ∈ (w.apply runtime drawn s).authorizations, a.Apart runtime id own user := by
  cases w with
  | create payload expiresAt =>
    simp only [AuthorizationWrite.apply, create_eq]
    split
    · exact hs
    · intro a ha
      rcases List.mem_append.mp ha with ha | ha
      · exact hs a ha
      · obtain rfl := List.mem_singleton.mp ha
        have hnamed := hdrawn payload expiresAt rfl
        exact { named := hnamed, nonce := hapart.trans hnamed.symm, payloadNonce := rfl, payloadHash := rfl }
  | setVerified aid assertion signature =>
    simp only [AuthorizationWrite.apply, AuthorizationStore.setVerified]
    split
    · exact hs
    · intro a ha
      obtain ⟨b, hb, rfl⟩ := Table.mem_modify.mp ha
      split
      · exact { hs b hb with }
      · exact hs b hb
  | setConsumed input => exact False.elim hapart

/-! What is asked for -/

theorem createChallenge_ok {userId : String} {dto : CreateFinancialAuthorizationChallengeDto} {wallet : Option WalletUser}
    (h : createChallenge runtime stellarNetwork userId dto wallet drawn = .ok w) :
    ∃ payload expiresAt, w = .create payload expiresAt ∧ payload.nonce = drawn.uuid ∧ payload.resourceId = dto.resourceId ∧
      payload.userId = userId := by
  unfold createChallenge at h
  obtain ⟨walletId, -, h⟩ := bind_eq_ok.mp h
  obtain rfl := pure_eq_ok.mp h
  exact ⟨_, _, rfl, rfl, rfl, rfl⟩

theorem verify_ok {userId : String} {dto : VerifyFinancialAuthorizationDto} {wallet : Option String}
    (h : verify runtime s userId dto wallet drawn = .ok w) :
    ∃ a signature, findAuthorization s dto.authorizationId = some a ∧ a.userId = userId ∧
      w = .setVerified dto.authorizationId dto.assertion signature := by
  unfold verify at h
  obtain ⟨a, ha, h⟩ := bind_eq_ok.mp h
  obtain ⟨signature, -, h⟩ := bind_eq_ok.mp h
  obtain rfl := pure_eq_ok.mp h
  unfold checkVerifiable at ha
  obtain ⟨a', hfind, ha⟩ := orThrow_bind_eq_ok.mp ha
  obtain ⟨-, ha⟩ := throwIf_bind_eq_ok.mp ha
  obtain ⟨-, ha⟩ := throwIf_bind_eq_ok.mp ha
  obtain ⟨-, ha⟩ := throwIf_bind_eq_ok.mp ha
  obtain rfl := pure_eq_ok.mp ha
  obtain ⟨hfind, huser⟩ := Option.filter_eq_some_iff.mp hfind
  exact ⟨a', signature, hfind, of_decide_eq_true huser, by rw [id_of_findAuthorization hfind]⟩

theorem verify_same {userId : String} {dto : VerifyFinancialAuthorizationDto} {wallet : Option String}
    (h : authorizationsView own s = authorizationsView own t) :
    (verify runtime s userId dto wallet drawn).toOption.filter (·.concerns id own user) =
      (verify runtime t userId dto wallet drawn).toOption.filter (·.concerns id own user) := by
  cases hown : own dto.authorizationId with
  | true => simp only [verify, checkVerifiable, findAuthorization_of_view h hown]
  | false =>
    have hnone : ∀ s, (verify runtime s userId dto wallet drawn).toOption.filter (·.concerns id own user) = none := by
      intro s
      refine Option.filter_eq_none_iff.mpr fun w hw hconcerns => ?_
      obtain ⟨a, signature, -, -, rfl⟩ := verify_ok (toOption_eq_some.mp hw)
      rw [AuthorizationWrite.concerns, hown] at hconcerns
      cases hconcerns
    rw [hnone, hnone]

/-- A user verifies no authorization of the receivable's that someone else has. -/
theorem verify_unseen (hs : ∀ a ∈ s.authorizations, a.Apart runtime id own user)
    {dto : VerifyFinancialAuthorizationDto} {wallet : Option String} (h : verify runtime s user dto wallet drawn = .ok w) :
    w.concerns id own user = false := by
  obtain ⟨a, signature, hfind, huser, rfl⟩ := verify_ok h
  have hnamed := (hs a (Table.mem_of_find hfind)).named
  rw [id_of_findAuthorization hfind] at hnamed
  rw [AuthorizationWrite.concerns, hnamed]
  simp [huser]

end Authorizations

/-! ### Collections that are asked for again -/

section Retries
variable {σ : Type} {runtime : Runtime} {id user identifier : String} {own : String → Bool} {s t : CreditState σ}
  {call : RetryCall}

def RetryCall.concerns (id : String) : RetryCall → Bool
  | .findReceivable collection _ | .createCollection collection _ _ | .update collection _ => collection.receivableId = id

def RetryCall.Apart (id : String) (own : String → Bool) : RetryCall → Prop
  | .findReceivable collection _ | .createCollection collection _ _ =>
    own collection.id = decide (collection.receivableId = id)
  | .update collection identifier =>
    own collection.id = decide (collection.receivableId = id) ∧ own identifier = own collection.id

theorem retry_same (hcall : call.concerns id) (h : creditView id own s = creditView id own t) :
    creditView id own (call.resume identifier s).1 = creditView id own (call.resume identifier t).1 ∧
      (call.resume identifier s).2 = (call.resume identifier t).2 := by
  cases call with
  | findReceivable collection pmeUserId =>
    refine ⟨h, ?_⟩
    simp only [RetryCall.resume, show collection.receivableId = id from of_decide_eq_true hcall,
      findReceivable_of_view (pix_of_view h)]
  | createCollection => exact ⟨h, rfl⟩
  | update collection identifier' =>
    refine ⟨?_, rfl⟩
    simp only [RetryCall.resume]
    rw [creditView_updateCollection, creditView_updateCollection, h] <;> intro c <;> rfl

theorem retry_unseen (hcall : call.concerns id = false) (hapart : call.Apart id own) :
    creditView id own (call.resume identifier s).1 = creditView id own s := by
  cases call with
  | findReceivable | createCollection => rfl
  | update collection identifier' =>
    refine creditView_pix ?_ rfl
    exact pixView_updateCollection_of_not_own (fun _ => rfl) (hapart.1.trans hcall)

theorem retry_apart (hapart : call.Apart id own) (hs : s.Apart runtime id own user)
    (hidentifier : ∀ collection receivable pmeUserId, call = .createCollection collection receivable pmeUserId →
      own identifier = call.concerns id) :
    (call.resume identifier s).1.Apart runtime id own user ∧
      ∀ next ∈ (call.resume identifier s).2, next.Apart id own ∧ next.concerns id = call.concerns id := by
  cases call with
  | findReceivable collection pmeUserId =>
    refine ⟨hs, fun next hnext => ?_⟩
    obtain ⟨r, -, rfl⟩ := Option.map_eq_some_iff.mp hnext
    exact ⟨hapart, rfl⟩
  | createCollection collection receivable pmeUserId =>
    refine ⟨hs, fun next hnext => ?_⟩
    obtain rfl := Option.mem_some.mp hnext
    exact ⟨⟨hapart, (hidentifier _ _ _ rfl).trans hapart.symm⟩, rfl⟩
  | update collection identifier' =>
    exact ⟨hs.updateIdentifier hapart.2, fun next hnext => absurd hnext (Option.not_mem_none next)⟩

theorem findCollectionRow_same (h : creditView id own s = creditView id own t) {cid : String} (hown : own cid = true) :
    findCollectionRow s cid = findCollectionRow t cid := by
  have hview : ∀ s : CreditState σ, findCollectionRow s cid =
      Table.find (fun c => c.id) cid (creditView id own s).collections := fun s =>
    (Table.find_filter fun c _ hc => by rw [hc]; exact hown).symm
  rw [hview, hview, h]

end Retries

/-! ### All calls -/

section Names
variable (id : String) (own : String → Bool) (user : String)

def AccountCall.concerns : AccountCall → Bool
  | .credit (.pix call) => call.concerns id
  | .credit (.purchase _) => false
  | .credit (.receivable call) => call.step.concerns id
  | .authorization w => w.concerns id own user
  | .retry call => call.concerns id

/-- The call's next statement names a row or a code. -/
def AccountCall.draws : AccountCall → Bool
  | .credit (.receivable call) => call.logs.isEmpty && call.step.draws
  | .authorization (.create ..) | .retry (.createCollection ..) => true
  | _ => false

def AccountReply.drawn? : AccountReply → Option String
  | .credit (.receivable reply) => reply.drawn?.map (·.uuid)
  | .credit _ => none
  | .authorization drawn => some drawn.uuid
  | .retry identifier => some identifier

/-- What is drawn for a call about the receivable is a name of the receivable's, and what is drawn for another one is
    not. -/
def DrawnApart : Option AccountCall → AccountReply → Prop
  | none, reply => ∀ name ∈ reply.drawn?, own name = false
  | some call, reply => call.draws → ∀ name ∈ reply.drawn?, own name = true

/-- A callback of the Pix service has the code of the collection that it is for, and the nonce of a payload is drawn. -/
def AccountRequest.Apart : AccountRequest → Prop
  | .credit (.pix (.callback callback)) => callback.Apart id own
  | .createChallenge userId dto _ drawn => own drawn.uuid = decide (dto.resourceId = some id ∧ userId ≠ user)
  | _ => True

/-- A call of the user. -/
def madeBy (name : Caller × Nat) : Bool := name.1 = .user user

/-- What a call has in hand; the user's are not about the receivable, or may still be refused. -/
def AccountCall.Apart (name : Caller × Nat) : AccountCall → Prop
  | .credit (.pix call) => call.Apart id own ∧ (madeBy user name → call.concerns id = false)
  | .credit (.purchase _) => False
  | .credit (.receivable call) =>
    call.step.Apart id own user ∧ (madeBy user name → call.step.Harmless id) ∧
      (madeBy user name = false → ∀ userId dto, call.step = .create userId dto → userId ≠ user)
  | .authorization w => w.Apart id own user ∧ (madeBy user name → w.concerns id own user = false)
  | .retry call => call.Apart id own ∧ (madeBy user name → call.concerns id = false)

end Names

section Refusals
variable {σ : Type} (env : CreditEnv σ) (id : String) (s : CreditState σ)

/-- The checks refuse the request as far as it is about the receivable; and no collection of the receivable is asked for
    again. -/
def AccountRequest.Refused : AccountRequest → Prop
  | .credit (.receivable request) => request.Refused env id s
  | .retryCollection collectionId _ => ∀ c ∈ findCollectionRow s collectionId, c.receivableId ≠ id
  | .credit (.pix _) | .credit (.purchase _) | .createChallenge .. | .verify .. => True

def AccountCall.Unauthorized : AccountCall → AccountReply → Prop
  | .credit (.receivable call), .credit (.receivable reply) =>
    ∀ drawn ∈ reply.drawn?, call.step.Unauthorized env id s drawn
  | _, _ => True

end Refusals

/-- What the guards let a caller send, purchases left aside. -/
def AccountRequest.Sendable (operator : String → Bool) (caller : Caller) (request : AccountRequest) : Prop :=
  Authenticated operator caller request ∧ request.isPurchase = false

section Unwinding
variable {env : CreditEnv Unit} {stellarNetwork : Option String} {operator : String → Bool} {id user : String}
  {own : String → Bool} {name : Caller × Nat} {request : AccountRequest} {call : AccountCall} {reply : AccountReply}
  {s t : CreditState Unit}

theorem user_of_madeBy (h : madeBy user name) : name.1 = .user user := of_decide_eq_true h

theorem not_user_of_madeBy (h : madeBy user name = false) : name.1 ≠ .user user := of_decide_eq_false h

/-- What is drawn for a statement on receivables fits it. -/
theorem drawing_of_drawnApart {c : ReceivableCall} {r : ReceivableReply} (hid : own id = true)
    (hapart : AccountCall.Apart id own user name (.credit (.receivable c)))
    (hdrawn : DrawnApart own
      (if madeBy user name then none else (some (.credit (.receivable c))).filter (AccountCall.concerns id own user))
      (.credit (.receivable r))) :
    c.logs = [] → ∀ drawn ∈ r.drawn?, c.step.Drawing id own user drawn := by
  intro hlogs drawn hdrawn'
  obtain ⟨-, hharmless, howner⟩ := hapart
  have hmem : drawn.uuid ∈ (AccountReply.credit (.receivable r)).drawn? := by
    simp only [AccountReply.drawn?, Option.mem_def.mp hdrawn', Option.map_some, Option.mem_def]
  cases hmade : madeBy user name with
  | true =>
    simp only [hmade, ↓reduceIte] at hdrawn
    have hnot : own drawn.uuid = false := hdrawn _ hmem
    refine ⟨fun hdraws => ?_, fun userId dto _ huuid => ?_⟩
    · rw [hnot, harmless_draws (hharmless hmade) hdraws]
    · rw [huuid, hid] at hnot
      cases hnot
  | false =>
    refine ⟨fun hdraws => ?_, fun userId dto hstep _ => howner hmade userId dto hstep⟩
    simp only [hmade, Bool.false_eq_true, ↓reduceIte] at hdrawn
    cases hconcerns : c.step.concerns id with
    | false =>
      rw [Option.filter_some_neg (by simp [AccountCall.concerns, hconcerns])] at hdrawn
      exact hdrawn _ hmem
    | true =>
      rw [Option.filter_some_pos (by simp [AccountCall.concerns, hconcerns])] at hdrawn
      exact hdrawn (by simp [AccountCall.draws, hlogs, hdraws]) _ hmem

theorem forall_credit_pix {next : Option PixCall} {P : AccountCall → Prop} :
    (∀ call ∈ (next.map CreditCall.pix).map AccountCall.credit, P call) ↔ ∀ call ∈ next, P (.credit (.pix call)) :=
  Option.forall_mem_map.trans Option.forall_mem_map

theorem forall_credit_receivable {next : Option ReceivableCall} {P : AccountCall → Prop} :
    (∀ call ∈ (next.map CreditCall.receivable).map AccountCall.credit, P call) ↔
      ∀ call ∈ next, P (.credit (.receivable call)) :=
  Option.forall_mem_map.trans Option.forall_mem_map

/-! A request -/

theorem pix_start_kept {request : PixRequest}
    (hsend : AccountRequest.Sendable operator name.1 (.credit (.pix request)))
    (hapart : AccountRequest.Apart id own user (.credit (.pix request))) :
    ∀ call ∈ (startPixCall env.pix request s.toPixState).2,
      AccountCall.Apart id own user name (.credit (.pix call)) := by
  intro call hcall
  obtain ⟨callback, rfl, rfl⟩ | ⟨userId, dto, tx, -, -, rfl⟩ := start_next hcall
  · refine ⟨hapart, fun hmade => ?_⟩
    have houtside : name.1 = .outside := hsend.1
    rw [user_of_madeBy hmade] at houtside
    cases houtside
  · exact ⟨trivial, fun _ => rfl⟩

theorem receivable_start_kept {request : ReceivableRequest} (hoperator : operator user = false)
    (hs : s.Apart env.runtime id own user)
    (hsend : AccountRequest.Sendable operator name.1 (.credit (.receivable request)))
    (hrefused : madeBy user name → request.Refused env id s) :
    ∀ call ∈ (startReceivable env request s).2, AccountCall.Apart id own user name (.credit (.receivable call)) := by
  intro call hcall
  have hstarted := startReceivable_started hcall
  refine ⟨hstarted.apart hs, fun hmade => ?_, fun hmade userId dto hstep => ?_⟩
  · have hnot : ∀ operatorId, ¬(name.1 = .user operatorId ∧ operator operatorId) := by
      rintro operatorId ⟨hname, htrue⟩
      rw [user_of_madeBy hmade] at hname
      cases hname
      rw [hoperator] at htrue
      cases htrue
    refine startReceivable_harmless (hrefused hmade) (fun rid operatorId => ⟨?_, ?_⟩) call hcall
    · rintro rfl
      exact hnot operatorId hsend.1
    · rintro rfl
      exact hnot operatorId hsend.1
  · rw [hstep] at hstarted
    cases hstarted
    have hname : name.1 = .user userId := hsend.1
    exact fun huser => not_user_of_madeBy hmade (huser ▸ hname)

theorem account_start_kept (hoperator : operator user = false) (hs : s.Apart env.runtime id own user)
    (hsend : request.Sendable operator name.1) (hapart : request.Apart id own user)
    (hrefused : madeBy user name → request.Refused env id s) :
    ((accountApi env stellarNetwork).start request s).1.Apart env.runtime id own user ∧
      ∀ call ∈ ((accountApi env stellarNetwork).start request s).2, call.Apart id own user name := by
  cases request with
  | credit request =>
    cases request with
    | pix request =>
      refine ⟨⟨startPixCall_apart request hs.pix, hs.authorization⟩, forall_credit_pix.mpr ?_⟩
      exact pix_start_kept hsend hapart
    | purchase request => cases hsend.2
    | receivable request =>
      refine ⟨startReceivable_apart hs, forall_credit_receivable.mpr ?_⟩
      exact receivable_start_kept hoperator hs hsend hrefused
  | createChallenge userId dto wallet drawn =>
    refine ⟨hs, Option.forall_mem_map.mpr fun w hw => ?_⟩
    obtain ⟨payload, expiresAt, rfl, hnonce, hresource, huser⟩ := createChallenge_ok (toOption_eq_some.mp hw)
    have hname : name.1 = .user userId := hsend.1
    refine ⟨?_, fun hmade => ?_⟩
    · rw [AuthorizationWrite.Apart, hnonce, hresource, huser]
      exact hapart
    · rw [user_of_madeBy hmade] at hname
      cases hname
      simp [AuthorizationWrite.concerns, huser]
  | verify userId dto wallet drawn =>
    refine ⟨hs, Option.forall_mem_map.mpr fun w hw => ?_⟩
    have hverify : verify env.runtime s.authorizations userId dto wallet drawn = .ok w := toOption_eq_some.mp hw
    have hname : name.1 = .user userId := hsend.1
    refine ⟨?_, fun hmade => ?_⟩
    · obtain ⟨a, signature, -, -, rfl⟩ := verify_ok hverify
      trivial
    · rw [user_of_madeBy hmade] at hname
      cases hname
      exact verify_unseen hs.authorization hverify
  | retryCollection collectionId pmeUserId =>
    refine ⟨hs, fun call hcall => ?_⟩
    obtain ⟨c, hc, rfl⟩ := Option.map_eq_some_iff.mp hcall
    refine ⟨(hs.pix.collection c (Table.mem_of_find hc)).1, fun hmade => ?_⟩
    exact decide_eq_false (hrefused hmade c hc)

theorem account_start_view (hpurchase : request.isPurchase = false) :
    creditView id own ((accountApi env stellarNetwork).start request s).1 = creditView id own s := by
  cases request with
  | credit request =>
    cases request with
    | pix request => exact creditView_pix (startPixCall_view request) rfl
    | purchase request => cases hpurchase
    | receivable request => exact startReceivable_view
  | createChallenge | verify | retryCollection => rfl

theorem filter_receivable (next : Option ReceivableCall) :
    ((next.map CreditCall.receivable).map AccountCall.credit).filter (AccountCall.concerns id own user) =
      ((next.filter (·.step.concerns id)).map CreditCall.receivable).map AccountCall.credit := by
  rw [Option.filter_map, Option.filter_map]
  rfl

theorem filter_authorization (next : Option AuthorizationWrite) :
    (next.map AccountCall.authorization).filter (AccountCall.concerns id own user) =
      (next.filter (·.concerns id own user)).map AccountCall.authorization := by
  rw [Option.filter_map]
  rfl

theorem retryCollection_unseen (hs : s.Apart env.runtime id own user) {collectionId pmeUserId : String}
    (hown : own collectionId = false) :
    ((accountApi env stellarNetwork).start (.retryCollection collectionId pmeUserId) s).2.filter
      (AccountCall.concerns id own user) = none := by
  refine Option.filter_eq_none_iff.mpr fun call hcall hconcerns => ?_
  obtain ⟨c, hc, rfl⟩ := Option.map_eq_some_iff.mp hcall
  have hid : c.id = collectionId := Table.key_of_find hc
  have hnamed := (hs.pix.collection c (Table.mem_of_find hc)).1
  rw [hid, hown] at hnamed
  exact of_decide_eq_false hnamed.symm (of_decide_eq_true hconcerns)

theorem account_start_same (hpurchase : request.isPurchase = false) (hs : s.Apart env.runtime id own user)
    (ht : t.Apart env.runtime id own user) (h : creditView id own s = creditView id own t) :
    ((accountApi env stellarNetwork).start request s).2.filter (AccountCall.concerns id own user) =
      ((accountApi env stellarNetwork).start request t).2.filter (AccountCall.concerns id own user) := by
  cases request with
  | credit request =>
    cases request with
    | pix request =>
      have hnext : (startPixCall env.pix request s.toPixState).2 = (startPixCall env.pix request t.toPixState).2 :=
        (startPixCall_same request (pix_of_view h)).2
      simp only [accountApi, creditApi, hnext]
    | purchase request => cases hpurchase
    | receivable request =>
      simp only [accountApi, creditApi, filter_receivable, startReceivable_same h]
  | createChallenge userId dto wallet drawn => rfl
  | verify userId dto wallet drawn =>
    have hnext : (verify env.runtime s.authorizations userId dto wallet drawn).toOption.filter (·.concerns id own user) =
        (verify env.runtime t.authorizations userId dto wallet drawn).toOption.filter (·.concerns id own user) :=
      verify_same (authorizations_of_view h)
    simp only [accountApi, financialAuthorizations, prepare, filter_authorization, hnext]
  | retryCollection collectionId pmeUserId =>
    cases hown : own collectionId with
    | true => simp only [accountApi, findCollectionRow_same h hown]
    | false => rw [retryCollection_unseen hs hown, retryCollection_unseen ht hown]

/-! An answer -/

theorem shown_of_madeBy (hmade : madeBy user name = false) (hconcerns : call.concerns id own user = false)
    (hdrawn : DrawnApart own (if madeBy user name then none else (some call).filter (AccountCall.concerns id own user)) reply) :
    DrawnApart own none reply := by
  simpa only [hmade, Bool.false_eq_true, ↓reduceIte, Option.filter_some_neg hconcerns] using hdrawn

theorem drawn_not_own {r : ReceivableReply} (h : DrawnApart own none (.credit (.receivable r))) :
    ∀ drawn ∈ r.drawn?, own drawn.uuid = false := by
  intro drawn hdrawn
  refine h drawn.uuid ?_
  simp only [AccountReply.drawn?, Option.mem_def.mp hdrawn, Option.map_some, Option.mem_def]

/-- What is drawn for a call that is the user's only where it is not about the receivable. -/
theorem named_of_drawnApart (hdraws : call.draws) (hforeign : madeBy user name → call.concerns id own user = false)
    (hdrawn : DrawnApart own (if madeBy user name then none else (some call).filter (AccountCall.concerns id own user)) reply) :
    ∀ drawn ∈ reply.drawn?, own drawn = call.concerns id own user := by
  intro drawn hmem
  cases hmade : madeBy user name with
  | true =>
    simp only [hmade, ↓reduceIte] at hdrawn
    rw [hforeign hmade, hdrawn drawn hmem]
  | false =>
    cases hconcerns : call.concerns id own user with
    | false => exact shown_of_madeBy hmade hconcerns hdrawn drawn hmem
    | true =>
      simp only [hmade, Bool.false_eq_true, ↓reduceIte, Option.filter_some_pos hconcerns] at hdrawn
      exact hdrawn hdraws drawn hmem

/-- The reply is one that the call waits for. -/
inductive Fits : AccountCall → AccountReply → Prop where
  | pix (call : PixCall) (reply : PixReply) : Fits (.credit (.pix call)) (.credit (.pix reply))
  | purchase (call : PurchaseCall) (reply : PurchaseReply) : Fits (.credit (.purchase call)) (.credit (.purchase reply))
  | receivable (call : ReceivableCall) (reply : ReceivableReply) :
    Fits (.credit (.receivable call)) (.credit (.receivable reply))
  | authorization (w : AuthorizationWrite) (drawn : Drawn) : Fits (.authorization w) (.authorization drawn)
  | retry (call : RetryCall) (identifier : String) : Fits (.retry call) (.retry identifier)

theorem resume_of_not_fits (h : ¬Fits call reply) :
    (accountApi env stellarNetwork).resume call reply s = (s, some call) := by
  rcases call with (call | call | call) | w | call <;> rcases reply with (reply | reply | reply) | drawn | identifier
  all_goals first | rfl | exact absurd (by constructor) h

theorem account_resume_kept (hid : own id = true) (hs : s.Apart env.runtime id own user) (hcall : call.Apart id own user name)
    (hdrawn : DrawnApart own (if madeBy user name then none else (some call).filter (AccountCall.concerns id own user)) reply)
    (hrefused : madeBy user name → call.Unauthorized env id s reply) :
    ((accountApi env stellarNetwork).resume call reply s).1.Apart env.runtime id own user ∧
      ∀ next ∈ ((accountApi env stellarNetwork).resume call reply s).2, next.Apart id own user name := by
  by_cases hfits : Fits call reply
  · cases hfits with
    | purchase call reply => exact False.elim hcall
    | pix call reply =>
      refine ⟨⟨resume_apart reply hs.pix, hs.authorization⟩, forall_credit_pix.mpr fun next hnext => ?_⟩
      have hcontinues := resume_continues reply hcall.1 hs.pix next hnext
      exact ⟨hcontinues.apart, fun hmade => hcontinues.concerns (hcall.2 hmade)⟩
    | receivable call reply =>
      have hdrawing := drawing_of_drawnApart hid hcall hdrawn
      obtain ⟨hstate, hcontinues⟩ : (resumeReceivable env call reply s).1.Apart env.runtime id own user ∧
          ∀ next ∈ (resumeReceivable env call reply s).2, call.step.Continues id own user next :=
        resumeReceivable_continues hcall.1 hdrawing hs
      refine ⟨hstate, forall_credit_receivable.mpr fun next hnext => ?_⟩
      refine ⟨(hcontinues next hnext).apart, fun hmade => ?_, fun hmade userId dto hstep => ?_⟩
      · simp only [hmade, ↓reduceIte] at hdrawn
        exact (resumeReceivable_harmless (hcall.2.1 hmade) hcall.1 hid (drawn_not_own hdrawn) (hrefused hmade) hs
          hcontinues).2 next hnext
      · exact hcall.2.2 hmade userId dto (resumeReceivable_create hnext hstep)
    | authorization w drawn =>
      refine ⟨⟨hs.pix, write_apply_apart hs.authorization hcall.1 fun payload expiresAt hw => ?_⟩, fun next hnext => ?_⟩
      · exact named_of_drawnApart (hw ▸ rfl) hcall.2 hdrawn _ rfl
      · cases hnext
    | retry call identifier =>
      obtain ⟨hstate, hnext⟩ := retry_apart hcall.1 hs fun collection receivable pmeUserId hretry =>
        named_of_drawnApart (hretry ▸ rfl) hcall.2 hdrawn identifier rfl
      refine ⟨hstate, fun next hmem => ?_⟩
      obtain ⟨next', hmem', rfl⟩ := Option.map_eq_some_iff.mp hmem
      obtain ⟨hapart, hconcerns⟩ := hnext next' hmem'
      exact ⟨hapart, fun hmade => hconcerns.trans (hcall.2 hmade)⟩
  · rw [resume_of_not_fits hfits]
    refine ⟨hs, fun next hnext => ?_⟩
    obtain rfl := Option.mem_some.mp hnext
    exact hcall

theorem account_resume_same (hsha : Function.Injective env.runtime.sha256) (hs : s.Apart env.runtime id own user)
    (ht : t.Apart env.runtime id own user) (hcall : call.Apart id own user name) (hconcerns : call.concerns id own user)
    (hdrawn : DrawnApart own (some call) reply) (h : creditView id own s = creditView id own t) :
    creditView id own ((accountApi env stellarNetwork).resume call reply s).1 =
        creditView id own ((accountApi env stellarNetwork).resume call reply t).1 ∧
      ((accountApi env stellarNetwork).resume call reply s).2.filter (AccountCall.concerns id own user) =
        ((accountApi env stellarNetwork).resume call reply t).2.filter (AccountCall.concerns id own user) := by
  by_cases hfits : Fits call reply
  · cases hfits with
    | purchase call reply => exact False.elim hcall
    | pix call reply =>
      have hauthorizations := authorizations_of_view h
      obtain ⟨hview, hnext⟩ : pixView id own (resumePixCall env.pix call reply s.toPixState).1 =
          pixView id own (resumePixCall env.pix call reply t.toPixState).1 ∧
          (resumePixCall env.pix call reply s.toPixState).2 = (resumePixCall env.pix call reply t.toPixState).2 :=
        resumePixCall_same reply hconcerns hcall.1 hs.pix ht.pix rfl (pix_of_view h)
      refine ⟨creditView_same hview hauthorizations, ?_⟩
      simp only [accountApi, creditApi, hnext]
    | receivable call reply =>
      obtain ⟨hview, hnext⟩ : creditView id own (resumeReceivable env call reply s).1 =
          creditView id own (resumeReceivable env call reply t).1 ∧
          (resumeReceivable env call reply s).2.filter (·.step.concerns id) =
            (resumeReceivable env call reply t).2.filter (·.step.concerns id) :=
        resumeReceivable_same hconcerns hcall.1 hs ht rfl h
      refine ⟨hview, ?_⟩
      simp only [accountApi, creditApi, filter_receivable, hnext]
    | authorization w drawn =>
      have hpix := pix_of_view h
      refine ⟨creditView_same hpix ?_, rfl⟩
      exact write_apply_same hsha hs.authorization ht.authorization hconcerns hcall.1
        (fun payload expiresAt hw => hdrawn (hw ▸ rfl) _ rfl) (authorizations_of_view h)
    | retry call identifier =>
      obtain ⟨hview, hnext⟩ : creditView id own (call.resume identifier s).1 = creditView id own (call.resume identifier t).1 ∧
          (call.resume identifier s).2 = (call.resume identifier t).2 := retry_same hconcerns h
      refine ⟨hview, ?_⟩
      simp only [accountApi, hnext]
  · rw [resume_of_not_fits hfits, resume_of_not_fits hfits]
    exact ⟨h, rfl⟩

theorem account_resume_unseen (hs : s.Apart env.runtime id own user) (hcall : call.Apart id own user name)
    (hconcerns : call.concerns id own user = false) (hdrawn : DrawnApart own none reply) :
    creditView id own ((accountApi env stellarNetwork).resume call reply s).1 = creditView id own s := by
  by_cases hfits : Fits call reply
  · cases hfits with
    | purchase call reply => exact False.elim hcall
    | pix call reply => exact creditView_pix (resumePixCall_unseen reply hconcerns hcall.1) rfl
    | receivable call reply => exact resumeReceivable_unseen hconcerns hcall.1 (drawn_not_own hdrawn) hs
    | authorization w drawn => exact creditView_same rfl (write_apply_unseen hconcerns hcall.1 (hdrawn drawn.uuid rfl))
    | retry call identifier => exact retry_unseen hconcerns hcall.1
  · rw [resume_of_not_fits hfits]

/-- A call that is not about the receivable does not come to be about it. -/
theorem account_resume_next_unseen (hid : own id = true) (hs : s.Apart env.runtime id own user)
    (hcall : call.Apart id own user name) (hmade : madeBy user name = false)
    (hconcerns : call.concerns id own user = false) (hdrawn : DrawnApart own none reply) :
    ((accountApi env stellarNetwork).resume call reply s).2.filter (AccountCall.concerns id own user) = none := by
  by_cases hfits : Fits call reply
  · cases hfits with
    | purchase call reply => exact False.elim hcall
    | pix call reply =>
      refine Option.filter_eq_none_iff.mpr (forall_credit_pix.mpr fun next hnext => ?_)
      exact Bool.eq_false_iff.mp ((resume_continues reply hcall.1 hs.pix next hnext).concerns hconcerns)
    | receivable call reply =>
      refine Option.filter_eq_none_iff.mpr (forall_credit_receivable.mpr fun next hnext => ?_)
      have hdrawing := drawing_of_drawnApart hid hcall
        (by rwa [hmade, if_neg Bool.false_ne_true, Option.filter_some_neg hconcerns])
      exact Bool.eq_false_iff.mp (((resumeReceivable_continues hcall.1 hdrawing hs).2 next hnext).concerns hconcerns)
    | authorization w drawn => rfl
    | retry call identifier =>
      refine Option.filter_eq_none_iff.mpr fun next hnext => ?_
      obtain ⟨next', hnext', rfl⟩ := Option.map_eq_some_iff.mp hnext
      have hidentifier : own identifier = call.concerns id := (hdrawn identifier rfl).trans hconcerns.symm
      have hnext'' := (retry_apart hcall.1 hs fun _ _ _ _ => hidentifier).2 next' hnext'
      exact Bool.eq_false_iff.mp (hnext''.2.trans hconcerns)
  · rw [resume_of_not_fits hfits, Option.filter_some_neg hconcerns]

theorem account_resume_hidden (hid : own id = true) (hs : s.Apart env.runtime id own user)
    (hcall : call.Apart id own user name) (hmade : madeBy user name) (hdrawn : DrawnApart own none reply)
    (hrefused : call.Unauthorized env id s reply) :
    creditView id own ((accountApi env stellarNetwork).resume call reply s).1 = creditView id own s := by
  by_cases hfits : Fits call reply
  · cases hfits with
    | purchase call reply => exact False.elim hcall
    | pix call reply => exact account_resume_unseen hs hcall (hcall.2 hmade) hdrawn
    | receivable call reply =>
      have hdrawing := drawing_of_drawnApart hid hcall (by rwa [hmade, if_pos rfl])
      exact (resumeReceivable_harmless (hcall.2.1 hmade) hcall.1 hid (drawn_not_own hdrawn) hrefused hs
        (resumeReceivable_continues hcall.1 hdrawing hs).2).1
    | authorization w drawn => exact account_resume_unseen hs hcall (hcall.2 hmade) hdrawn
    | retry call identifier => exact account_resume_unseen hs hcall (hcall.2 hmade) hdrawn
  · rw [resume_of_not_fits hfits]

theorem accounts_unwinding (hsha : Function.Injective env.runtime.sha256) (hid : own id = true)
    (hoperator : operator user = false) :
    Unwinding (creditView id own) (AccountCall.concerns id own user) (madeBy user) (accountApi env stellarNetwork)
      (fun name request => request.Sendable operator name.1 ∧ request.Apart id own user) (DrawnApart own)
      (fun s request => request.Refused env id s) (fun s call reply => call.Unauthorized env id s reply)
      (CreditState.Apart env.runtime id own user) (AccountCall.Apart id own user) where
  start _ _ _ hs hsend hrefused := account_start_kept hoperator hs hsend.1 hsend.2 hrefused
  resume _ _ _ _ hs hcall hdrawn hrefused := account_resume_kept hid hs hcall hdrawn hrefused
  start_same _ _ _ _ _ hsend hs ht h :=
    ⟨by rwa [account_start_view hsend.1.2, account_start_view hsend.1.2], account_start_same hsend.1.2 hs ht h⟩
  resume_same _ _ _ _ _ _ hconcerns hcall hdrawn hs ht h := account_resume_same hsha hs ht hcall hconcerns hdrawn h
  resume_unseen _ _ _ _ hmade hconcerns hcall hdrawn hs :=
    ⟨account_resume_unseen hs hcall hconcerns hdrawn, account_resume_next_unseen hid hs hcall hmade hconcerns hdrawn⟩
  start_hidden _ _ _ _ hsend _ _ := account_start_view hsend.1.2
  resume_hidden _ _ _ _ hmade hcall hdrawn hrefused hs := account_resume_hidden hid hs hcall hmade hdrawn hrefused

end Unwinding

/-! ### Runs -/

theorem standing_of_view {runtime : Runtime} {id user : String} {own : String → Bool} {s t : CreditState Unit}
    (hs : s.Apart runtime id own user) (ht : t.Apart runtime id own user)
    (h : creditView id own s = creditView id own t) : s.standing id = t.standing id := by
  have hcollections : ∀ {s : CreditState Unit}, s.Apart runtime id own user →
      s.receivableCollections.filter (·.receivableId = id) = (creditView id own s).collections := fun hs =>
    List.filter_congr fun c hc => (hs.pix.collection c hc).1.symm
  unfold CreditState.standing
  rw [findReceivable_of_view (pix_of_view h), hcollections hs, hcollections ht, h]

section Runs
variable (env : CreditEnv Unit) (operator : String → Bool) (id user : String) (own : String → Bool)

/-- The guards let the request through, no purchase is asked for, and what is drawn for the receivable is drawn for nothing
    else. -/
def Regular : Sessions (CreditState Unit) AccountCall (Caller × Nat) → SessionOp (Caller × Nat) AccountRequest AccountReply →
    Prop :=
  Observable (creditView id own) (AccountCall.concerns id own user) (madeBy user)
    (fun name request => request.Sendable operator name.1 ∧ request.Apart id own user) (DrawnApart own)

/-- What the user asks about the receivable is refused. -/
def RefusedToUser : Sessions (CreditState Unit) AccountCall (Caller × Nat) →
    SessionOp (Caller × Nat) AccountRequest AccountReply → Prop :=
  Confined (madeBy user) (fun s request => request.Refused env id s) fun s call reply => call.Unauthorized env id s reply

end Runs

/-! Runs of three users -/

def makerCall : Caller × Nat := (.user "pme", 0)
def operatorCall : Caller × Nat := (.user "operator", 0)
def strangerCall : Caller × Nat := (.user "stranger", 0)

def statementDone (name : Caller × Nat) (uuid : String) : SessionOp (Caller × Nat) AccountRequest AccountReply :=
  .resume name (.credit (.receivable (.ok ⟨0, uuid⟩)))

/-- A stranger asks for the tokenization of a receivable that no operator has approved. -/
def refusedRun : List (SessionOp (Caller × Nat) AccountRequest AccountReply) :=
  [.start makerCall (.credit (.receivable (.create "pme" ⟨60, "invoice", "debtor", "document", "2030-01-01"⟩))),
    statementDone makerCall "receivable", statementDone makerCall "",
    .start strangerCall (.credit (.receivable (.tokenize "receivable"))), statementDone strangerCall ""]

/-- Where each request about a receivable is refused to a user who is no operator and does not own it, the receivable
    stands in the end as it does without that user's requests. -/
theorem standing_without_refused (env : CreditEnv Unit) (stellarNetwork : Option String)
    (hsha : Function.Injective env.runtime.sha256) (operator : String → Bool) (id user : String) (own : String → Bool)
    (hid : own id = true) (hoperator : operator user = false) (s : CreditState Unit) (hs : s.Apart env.runtime id own user)
    (ops : List (SessionOp (Caller × Nat) AccountRequest AccountReply))
    (hregular : Along (accountApi env stellarNetwork).session (Regular operator id user own) (.idle s) ops)
    (hrefused : Along (accountApi env stellarNetwork).session (RefusedToUser env id user) (.idle s) ops) :
    (run (accountApi env stellarNetwork).session (.idle s) ops).shared.standing id =
      (run (accountApi env stellarNetwork).session (.idle s)
        (ops.filter fun op => !madeBy user op.name)).shared.standing id := by
  obtain ⟨hobserve, hkept, hkept'⟩ :=
    (accounts_unwinding hsha hid hoperator).observe_run (.idle hs) (.idle hs) rfl hregular hrefused
  exact standing_of_view hkept.1 hkept'.1 (congrArg Observation.view hobserve)

theorem standing_without_stranger :
    (run (accountApi testCreditEnv none).session (.idle { chain := () }) refusedRun).shared.standing "receivable" =
      (run (accountApi testCreditEnv none).session (.idle { chain := () })
        (refusedRun.filter fun op => !madeBy "stranger" op.name)).shared.standing "receivable" := by
  refine standing_without_refused testCreditEnv none (fun _ _ h => h) (fun userId => userId = "operator") "receivable"
    "stranger" (fun name => name = "receivable") rfl rfl _ ?_ refusedRun ?_ ?_
  · exact ⟨⟨fun _ h => absurd h (Option.not_mem_none _), fun _ h => absurd h List.not_mem_nil⟩,
      fun _ h => absurd h List.not_mem_nil⟩
  · have hlog : ∀ name ∈ some "", decide (name = "receivable") = false := by decide
    simp only [refusedRun, Along, and_true]
    exact ⟨⟨⟨rfl, rfl⟩, trivial⟩, fun h => absurd h (by decide +kernel), hlog, ⟨⟨⟨"stranger", rfl⟩, rfl⟩, trivial⟩, hlog⟩
  · simp only [refusedRun, Along, and_true]
    exact ⟨fun h => absurd h (by decide), fun h => absurd h (by decide), fun h => absurd h (by decide),
      fun _ _ => by decide +kernel, fun _ f hf => absurd hf (Option.not_mem_none f)⟩

/-- A receivable is made, approved and tokenized. -/
def tokenizedRun : List (SessionOp (Caller × Nat) AccountRequest AccountReply) :=
  [.start makerCall (.credit (.receivable (.create "pme" ⟨60, "invoice", "debtor", "document", "2030-01-01"⟩))),
    statementDone makerCall "receivable", statementDone makerCall "",
    .start operatorCall (.credit (.receivable (.approveReceivable "receivable" "operator")))] ++
  List.replicate 5 (statementDone operatorCall "") ++
  [.resume operatorCall (.credit (.receivable (.submitted .confirmed 0 "hash")))] ++
  List.replicate 3 (statementDone operatorCall "")

/-- A stranger asks for the assignment of the tokenized receivable. -/
def strangerRun : List (SessionOp (Caller × Nat) AccountRequest AccountReply) :=
  tokenizedRun ++ [.start strangerCall (.credit (.receivable (.requestAssignment "receivable"))), statementDone strangerCall ""]

theorem stranger_moves_receivable :
    (∀ name request, .start name request ∈ strangerRun →
      AccountRequest.Sendable (fun userId => userId = "operator") name.1 request) ∧
      (run (accountApi testCreditEnv none).session (.idle { chain := () }) strangerRun).shared.standing "receivable" ≠
        (run (accountApi testCreditEnv none).session (.idle { chain := () })
          (strangerRun.filter fun op => !madeBy "stranger" op.name)).shared.standing "receivable" ∧
      ((run (accountApi testCreditEnv none).session (.idle { chain := () }) strangerRun).shared.findReceivable
        "receivable").map (·.userId) = some "pme" := by
  refine ⟨fun name request hstart => ?_, by decide +kernel, by decide +kernel⟩
  simp only [strangerRun, tokenizedRun, statementDone, List.replicate, List.mem_append, List.mem_cons, List.not_mem_nil,
    SessionOp.start.injEq, reduceCtorEq, or_false, false_or] at hstart
  obtain (⟨rfl, rfl⟩ | ⟨rfl, rfl⟩) | ⟨rfl, rfl⟩ := hstart
  · exact ⟨rfl, rfl⟩
  · exact ⟨⟨rfl, rfl⟩, rfl⟩
  · exact ⟨⟨_, rfl⟩, rfl⟩

end CredBridge.Api
