import CredBridge.Api.PixEffects
import CredBridge.Api.ReceivableAccess

/-! # What is seen of one receivable

The view of a receivable: its row, its collections, the authorizations about it, and the events that were recorded. A
callback either is about the receivable, and then goes on alike wherever the view is the same, or leaves the view as it
is; and so does what is written on authorizations.

`own` are the names of the receivable: its identifier, those of its collections and of their codes, and those of the
authorizations about it. Nothing else has one of them, as identifiers are drawn anew. -/

namespace CredBridge.Api
open Concurrent Contracts Machine Result Submission

/-! ### Callbacks -/

/-- The call works on the receivable, or on the rows that keep each event to one call. -/
def PixCall.concerns (id : String) : PixCall → Bool
  | .recordEvent _ => true
  | .findCollection dto | .markPaid dto _ | .findReceivable dto _ | .auditPaid dto _ _ | .findSettled dto _
  | .settleOnChain dto _ _ _ | .markSettled dto _ _ _ | .createSettlement dto _ _ _ | .recordTxHash dto _ _ =>
    dto.receivableId = id
  | .loadTransaction _ | .updatePixColumns .. | .failDeposit .. | .mint .. | .approve .. | .auditConfirmed ..
  | .auditMintFailed .. | .updateStatus .. | .auditStatus .. | .burn .. | .createTransaction _ | .auditCreated ..
  | .orderWithdrawal .. | .setPixOrder .. => false

@[ext] structure PixView where
  events : List PixWebhookEvent
  receivable : Option ReceivableRow
  collections : List ReceivableCollection

section Callbacks
variable {σ : Type} (id : String) (own : String → Bool)

def pixView (s : PixState σ) : PixView where
  events := s.webhookEvents
  receivable := s.findReceivable id
  collections := s.receivableCollections.filter (own ·.id)

/-- A callback of a collection has the receivable that the collection's code is for. -/
def Callback.Apart : Callback → Prop
  | .order _ => True
  | .collection dto => own dto.identifier = decide (dto.receivableId = id)

/-- What a call has in hand is the receivable's exactly if the call is about it. -/
def PixCall.Apart : PixCall → Prop
  | .recordEvent callback => callback.Apart id own
  | .findCollection dto => own dto.identifier = decide (dto.receivableId = id)
  | .markPaid dto collection | .recordTxHash dto collection _ => own collection.id = decide (dto.receivableId = id)
  | .findReceivable dto collection | .auditPaid dto collection _ | .findSettled dto collection =>
    ∀ c ∈ collection, own c.id = decide (dto.receivableId = id)
  | .settleOnChain dto collection receivable _ | .markSettled dto collection receivable _
  | .createSettlement dto collection receivable _ =>
    (∀ c ∈ collection, own c.id = decide (dto.receivableId = id)) ∧ receivable.id = dto.receivableId
  | _ => True

/-- The rows of the receivable are those with its names; `user` does not own it. -/
structure PixState.Apart (user : String) (s : PixState σ) : Prop where
  owner : ∀ row ∈ s.findReceivable id, row.userId ≠ user
  collection : ∀ c ∈ s.receivableCollections, own c.id = decide (c.receivableId = id) ∧ ∀ i ∈ c.identifier, own i = own c.id

end Callbacks

section PixViews
variable {σ : Type} {env : PixEnv σ} {id user value : String} {own : String → Bool} {s t : PixState σ} {call : PixCall}

@[simp] theorem pixView_did (eventId : String) (act : Act) : pixView id own (s.did eventId act) = pixView id own s := rfl

@[simp] theorem pixView_audit (log : AuditLog) : pixView id own (s.audit log) = pixView id own s := rfl

@[simp] theorem pixView_settle (row : SettlementRow) : pixView id own (s.settle row) = pixView id own s := rfl

@[simp] theorem pixView_acknowledge (callback : Callback) : pixView id own (s.acknowledge callback) = pixView id own s := rfl

@[simp] theorem pixView_updateTransaction (tid : String) (change : PixTransaction → PixTransaction) :
    pixView id own (s.updateTransaction tid change) = pixView id own s := rfl

@[simp] theorem pixView_chain (chain : σ) : pixView id own { s with chain } = pixView id own s := rfl

theorem pixView_record (callback : Callback) :
    pixView id own (s.record callback) =
      { pixView id own s with events := (pixView id own s).events ++ [callback.event] } := rfl

theorem pixView_updateCollection {cid : String} {change : ReceivableCollection → ReceivableCollection}
    (hid : ∀ c, (change c).id = c.id) :
    pixView id own (s.updateCollection cid change) =
      { pixView id own s with collections := Table.modify (·.id) cid change (pixView id own s).collections } := by
  refine PixView.ext rfl rfl ?_
  exact Table.filter_modify fun c => congrArg own (hid c)

/-- A collection of another receivable is not in view. -/
theorem pixView_updateCollection_of_not_own {cid : String} {change : ReceivableCollection → ReceivableCollection}
    (hid : ∀ c, (change c).id = c.id) (hcid : own cid = false) :
    pixView id own (s.updateCollection cid change) = pixView id own s := by
  rw [pixView_updateCollection hid]
  refine PixView.ext rfl rfl ?_
  refine Table.modify_of_not_mem fun hmem => ?_
  obtain ⟨c, hc, rfl⟩ := List.mem_map.mp hmem
  rw [(List.mem_filter.mp hc).2] at hcid
  cases hcid

theorem pixView_updateReceivable {rid : String} {change : ReceivableRow → ReceivableRow} (hid : ∀ r, (change r).id = r.id) :
    pixView id own (s.updateReceivable rid change) =
      { pixView id own s with
        receivable := (pixView id own s).receivable.map fun r => if r.id = rid then change r else r } := by
  refine PixView.ext rfl ?_ rfl
  exact Table.find_modify fun r hr => (hid r).trans hr

theorem pixView_updateReceivable_of_ne {rid : String} {change : ReceivableRow → ReceivableRow}
    (hid : ∀ r, (change r).id = r.id) (hrid : rid ≠ id) :
    pixView id own (s.updateReceivable rid change) = pixView id own s := by
  rw [pixView_updateReceivable hid]
  refine PixView.ext rfl ?_ rfl
  cases hfind : s.findReceivable id with
  | none => simp only [pixView, hfind, Option.map_none]
  | some r =>
    have hr : r.id ≠ rid := fun h => hrid (h.symm.trans (id_of_findReceivable hfind))
    simp only [pixView, hfind, Option.map_some, if_neg hr]

/-! What is in view -/

theorem recorded_of_view (h : pixView id own s = pixView id own t) (eventId : String) :
    s.recorded eventId = t.recorded eventId :=
  recorded_of_webhookEvents (congrArg PixView.events h) eventId

theorem findReceivable_of_view (h : pixView id own s = pixView id own t) : s.findReceivable id = t.findReceivable id :=
  congrArg PixView.receivable h

/-- A code of the receivable's is that of a row in view. -/
theorem findCollection_of_own (hs : s.Apart id own user) {identifier : String} (howned : own identifier = true) :
    s.findCollection identifier =
      Table.find (fun c => c.identifier) (some identifier) (pixView id own s).collections := by
  refine (Table.find_filter fun c hc hidentifier => ?_).symm
  rw [← (hs.collection c hc).2 identifier hidentifier]
  exact howned

theorem findCollection_of_view (hs : s.Apart id own user) (ht : t.Apart id own user)
    (h : pixView id own s = pixView id own t) {identifier : String} (howned : own identifier = true) :
    s.findCollection identifier = t.findCollection identifier := by
  rw [findCollection_of_own hs howned, findCollection_of_own ht howned, h]

/-! What a statement does to the view -/

theorem execute_same (hcall : call.concerns id) (h : pixView id own s = pixView id own t) :
    pixView id own (call.execute env value s) = pixView id own (call.execute env value t) := by
  cases call with
  | recordEvent callback =>
    simp only [PixCall.execute, recorded_of_view h]
    split
    · exact h
    · rw [pixView_record, pixView_record, h]
  | markPaid | recordTxHash =>
    simp only [PixCall.execute, pixView_did]
    rw [pixView_updateCollection, pixView_updateCollection, h] <;> intro c <;> rfl
  | markSettled =>
    simp only [PixCall.execute, pixView_did]
    rw [pixView_updateReceivable, pixView_updateReceivable, h] <;> intro r <;> rfl
  | findCollection | findReceivable | auditPaid | findSettled | settleOnChain | createSettlement => exact h
  | _ => cases hcall

theorem execute_unseen (hcall : call.concerns id = false) (hapart : call.Apart id own) :
    pixView id own (call.execute env value s) = pixView id own s := by
  cases call with
  | recordEvent callback => cases hcall
  | markPaid dto collection | recordTxHash dto collection =>
    simp only [PixCall.execute, pixView_did]
    exact pixView_updateCollection_of_not_own (fun _ => rfl) (hapart.trans hcall)
  | markSettled dto collection receivable =>
    simp only [PixCall.execute, pixView_did]
    refine pixView_updateReceivable_of_ne (fun _ => rfl) ?_
    rw [hapart.2]
    exact of_decide_eq_false hcall
  | createTransaction dto | orderWithdrawal t dto =>
    simp only [PixCall.execute, PixState.orderWithdrawal]
    split <;> rfl
  | _ => rfl

theorem landed_view (chain : σ) : pixView id own (call.landed s chain) = pixView id own s := by
  cases call <;> rfl

theorem confirmed_view (txHash : String) : pixView id own (call.confirmed env txHash s).1 = pixView id own s := by
  cases call <;> rfl

theorem confirmed_snd {txHash : String} : (call.confirmed env txHash s).2 = (call.confirmed env txHash t).2 := by
  cases call <;> rfl

theorem goOn_view (flow : Flow) : pixView id own (call.goOn s flow).1 = pixView id own s := by
  cases flow with
  | next | raised => rfl
  | finished =>
    simp only [PixCall.goOn]
    split <;> rfl

theorem goOn_snd (flow : Flow) : (call.goOn s flow).2 = (call.goOn t flow).2 := by
  cases flow <;> rfl

/-! Where a call goes on -/

theorem settleInvoice_same {now : String} {dto : PixCollectionCallback} {collection : Option ReceivableCollection}
    (hdto : dto.receivableId = id) (h : pixView id own s = pixView id own t) :
    settleInvoice env now s dto collection = settleInvoice env now t dto collection := by
  unfold settleInvoice
  rw [hdto, findReceivable_of_view h]

theorem proceed_same (hcall : call.concerns id) (hapart : call.Apart id own) (hs : s.Apart id own user)
    (ht : t.Apart id own user) (h : pixView id own s = pixView id own t) :
    call.proceed env value s = call.proceed env value t := by
  cases call with
  | recordEvent callback => simp only [PixCall.proceed, recorded_of_view h]
  | findCollection dto =>
    simp only [PixCall.proceed, findCollection_of_view hs ht h (hapart.trans hcall)]
  | findReceivable dto collection =>
    simp only [PixCall.proceed, of_decide_eq_true hcall, findReceivable_of_view h]
  | findSettled dto collection => exact settleInvoice_same (of_decide_eq_true hcall) h
  | markPaid | auditPaid | markSettled | createSettlement | recordTxHash | settleOnChain => rfl
  | _ => cases hcall

/-- What comes after a call is about the same receivable, and has in hand what is the receivable's. -/
structure PixCall.Continues (id : String) (own : String → Bool) (call next : PixCall) : Prop where
  apart : next.Apart id own
  concerns : call.concerns id = false → next.concerns id = false

theorem settleInvoice_continues {now : String} {dto : PixCollectionCallback} {collection : Option ReceivableCollection}
    {next : PixCall} (hapart : ∀ c ∈ collection, own c.id = decide (dto.receivableId = id))
    (h : settleInvoice env now s dto collection = .next next) :
    next.Apart id own ∧ next.concerns id = decide (dto.receivableId = id) := by
  unfold settleInvoice afterSettlement at h
  split at h
  · cases h
  · next receivable hfind =>
    have hid := id_of_findReceivable hfind
    split at h
    · split at h <;> cases h
      exact ⟨hapart _ rfl, rfl⟩
    · split at h <;> cases h <;> exact ⟨⟨hapart, hid⟩, rfl⟩

theorem proceed_continues {next : PixCall} (hapart : call.Apart id own) (hs : s.Apart id own user)
    (h : call.proceed env value s = .next next) : call.Continues id own next := by
  cases call with
  | recordEvent callback =>
    simp only [PixCall.proceed] at h
    refine ⟨?_, fun hcall => by cases hcall⟩
    split at h
    · cases h
    · split at h
      · cases h
        trivial
      · split at h <;> cases h
        exact hapart
  | findCollection dto =>
    simp only [PixCall.proceed] at h
    split at h <;> cases h
    · exact ⟨fun c hc => absurd hc (Option.not_mem_none c), fun hcall => hcall⟩
    · next collection hfind =>
      have hidentifier : collection.identifier = some dto.identifier := Table.key_of_find hfind
      have hown := (hs.collection collection (Table.mem_of_find hfind)).2 dto.identifier hidentifier
      exact ⟨hown.symm.trans hapart, fun hcall => hcall⟩
  | markPaid dto collection =>
    cases h
    refine ⟨fun c hc => ?_, fun hcall => hcall⟩
    obtain rfl := Option.mem_some.mp hc
    exact hapart
  | findReceivable dto collection =>
    simp only [PixCall.proceed] at h
    split at h <;> cases h <;> exact ⟨hapart, fun hcall => hcall⟩
  | findSettled dto collection =>
    obtain ⟨hnext, hconcerns⟩ := settleInvoice_continues hapart h
    exact ⟨hnext, hconcerns.trans⟩
  | createSettlement dto collection receivable txHash =>
    simp only [PixCall.proceed, afterSettlement] at h
    split at h <;> cases h
    exact ⟨hapart.1 _ rfl, fun hcall => hcall⟩
  | auditPaid | markSettled =>
    cases h
    exact ⟨hapart, fun hcall => hcall⟩
  | loadTransaction dto =>
    simp only [PixCall.proceed] at h
    split at h <;> cases h
    exact ⟨trivial, fun _ => rfl⟩
  | updatePixColumns t dto =>
    simp only [PixCall.proceed, dispatchOrder, confirmDeposit] at h
    repeat' split at h
    all_goals cases h
    all_goals exact ⟨trivial, fun _ => rfl⟩
  | createTransaction dto =>
    simp only [PixCall.proceed] at h
    split at h <;> cases h
    exact ⟨trivial, fun _ => rfl⟩
  | approve | updateStatus | auditCreated | orderWithdrawal =>
    cases h
    exact ⟨trivial, fun _ => rfl⟩
  | failDeposit | auditConfirmed | auditMintFailed | auditStatus | recordTxHash | setPixOrder | mint | settleOnChain
  | burn => cases h

theorem rescue_continues {message : String} {next : PixCall} (h : call.rescue message = .next next) :
    call.Continues id own next := by
  cases call <;> cases h <;> exact ⟨trivial, fun _ => rfl⟩

theorem confirmed_continues {txHash : String} {next : PixCall} (hapart : call.Apart id own)
    (h : (call.confirmed env txHash s).2 = .next next) : call.Continues id own next := by
  cases call with
  | mint =>
    cases h
    exact ⟨trivial, fun _ => rfl⟩
  | settleOnChain =>
    cases h
    exact ⟨hapart, fun hcall => hcall⟩
  | burn userId dto tx =>
    simp only [PixCall.confirmed] at h
    split at h <;> cases h
    exact ⟨trivial, fun _ => rfl⟩
  | _ => cases h

/-! Rows keep their names -/

namespace PixState.Apart

theorem of_same {s' : PixState σ} (hs : s.Apart id own user) (hreceivables : s'.receivables = s.receivables)
    (hcollections : s'.receivableCollections = s.receivableCollections) : s'.Apart id own user where
  owner row hrow := by
    unfold PixState.findReceivable at hrow
    rw [hreceivables] at hrow
    exact hs.owner row hrow
  collection := hcollections ▸ hs.collection

theorem did (hs : s.Apart id own user) (eventId : String) (act : Act) : (s.did eventId act).Apart id own user :=
  hs.of_same rfl rfl

theorem updateReceivable {rid : String} {change : ReceivableRow → ReceivableRow} (hs : s.Apart id own user)
    (hid : ∀ r, (change r).id = r.id) (huser : ∀ r, (change r).userId = r.userId) :
    (s.updateReceivable rid change).Apart id own user where
  owner row hrow := by
    have hfind : (s.updateReceivable rid change).findReceivable id =
        (s.findReceivable id).map fun r => if r.id = rid then change r else r :=
      Table.find_modify fun r hr => (hid r).trans hr
    obtain ⟨r, hr, rfl⟩ := Option.map_eq_some_iff.mp (hfind.symm.trans hrow)
    split
    · exact huser r ▸ hs.owner r hr
    · exact hs.owner r hr
  collection := hs.collection

theorem updateCollection {cid : String} {change : ReceivableCollection → ReceivableCollection} (hs : s.Apart id own user)
    (hid : ∀ c, (change c).id = c.id) (hreceivable : ∀ c, (change c).receivableId = c.receivableId)
    (hidentifier : ∀ c ∈ s.receivableCollections, c.id = cid → ∀ i ∈ (change c).identifier, own i = own c.id) :
    (s.updateCollection cid change).Apart id own user where
  owner := hs.owner
  collection c hc := by
    obtain ⟨c', hc', rfl⟩ := Table.mem_modify.mp hc
    split
    · next hcid =>
      rw [hid, hreceivable]
      exact ⟨(hs.collection c' hc').1, hidentifier c' hc' hcid⟩
    · exact hs.collection c' hc'

end PixState.Apart

theorem execute_apart (hs : s.Apart id own user) : (call.execute env value s).Apart id own user := by
  cases call with
  | recordEvent | createTransaction | orderWithdrawal =>
    simp only [PixCall.execute, PixState.orderWithdrawal]
    split
    · exact hs
    · exact hs.of_same rfl rfl
  | markPaid | recordTxHash =>
    refine PixState.Apart.did ?_ _ _
    exact hs.updateCollection (fun _ => rfl) (fun _ => rfl) fun c hc _ => (hs.collection c hc).2
  | markSettled =>
    refine PixState.Apart.did ?_ _ _
    exact hs.updateReceivable (fun _ => rfl) fun _ => rfl
  | _ => exact hs.of_same rfl rfl

theorem resume_apart (reply : PixReply) (hs : s.Apart id own user) : (resumePixCall env call reply s).1.Apart id own user :=
  resume_relates (R := fun s s' => s.Apart id own user → s'.Apart id own user) (fun _ hs => hs)
    (fun _ _ _ h h' hs => h' (h hs)) (fun _ _ hs => hs.of_same rfl rfl) (fun _ => execute_apart)
    (fun chain _ _ hs => by cases call <;> exact hs.of_same rfl rfl)
    (fun txHash _ hs => by cases call <;> exact hs.of_same rfl rfl) reply hs

/-! An answer -/

theorem resume_continues (reply : PixReply) (hapart : call.Apart id own) (hs : s.Apart id own user) :
    ∀ next ∈ (resumePixCall env call reply s).2, call.Continues id own next :=
  resume_establishes (P := fun _ next => call.Continues id own next) ⟨hapart, fun hcall => hcall⟩
    (fun _ _ h => proceed_continues hapart hs h) (fun _ _ _ h => rescue_continues h)
    (fun _ _ _ h => confirmed_continues hapart h) reply

theorem resumePixCall_unseen (reply : PixReply) (hcall : call.concerns id = false) (hapart : call.Apart id own) :
    pixView id own (resumePixCall env call reply s).1 = pixView id own s :=
  resume_keeps (pixView id own) (fun _ _ => rfl) (fun _ => execute_unseen hcall hapart)
    (fun chain _ _ => landed_view chain) (fun txHash _ => confirmed_view txHash) reply

/-- A call about the receivable goes on alike in two states with the same view, where the chain is the same. -/
theorem resumePixCall_same (reply : PixReply) (hcall : call.concerns id) (hapart : call.Apart id own)
    (hs : s.Apart id own user) (ht : t.Apart id own user) (hchain : s.chain = t.chain)
    (h : pixView id own s = pixView id own t) :
    pixView id own (resumePixCall env call reply s).1 = pixView id own (resumePixCall env call reply t).1 ∧
      (resumePixCall env call reply s).2 = (resumePixCall env call reply t).2 := by
  cases reply with
  | ok value =>
    cases hsubmits : call.submits env with
    | some calls =>
      simp only [resumePixCall, hsubmits]
      exact ⟨h, trivial⟩
    | none =>
      simp only [resumePixCall, hsubmits, goOn_view, proceed_same hcall hapart hs ht h]
      exact ⟨execute_same hcall h, goOn_snd _⟩
  | threw executed message =>
    simp only [resumePixCall, goOn_view]
    refine ⟨?_, goOn_snd _⟩
    cases executed with
    | none => exact h
    | some value => exact execute_same hcall h
  | submitted fate time txHash message =>
    cases hsubmits : call.submits env with
    | none =>
      simp only [resumePixCall, hsubmits]
      exact ⟨h, trivial⟩
    | some calls =>
      simp only [resumePixCall, hsubmits, submitCall, hchain]
      cases land (env.execute time calls t.chain) fate with
      | never => exact ⟨by rwa [goOn_view, goOn_view], goOn_snd _⟩
      | late chain => exact ⟨by rwa [goOn_view, goOn_view, landed_view, landed_view], goOn_snd _⟩
      | inTime chain =>
        refine ⟨by rwa [goOn_view, goOn_view, confirmed_view, confirmed_view, landed_view, landed_view], ?_⟩
        have hflow : (call.confirmed env txHash (call.landed s chain)).2 = (call.confirmed env txHash (call.landed t chain)).2 :=
          confirmed_snd
        dsimp only
        rw [hflow]
        exact goOn_snd _

theorem startPixCall_same (request : PixRequest) (h : pixView id own s = pixView id own t) :
    pixView id own (startPixCall env request s).1 = pixView id own (startPixCall env request t).1 ∧
      (startPixCall env request s).2 = (startPixCall env request t).2 := by
  cases request with
  | callback callback =>
    simp only [startPixCall, recorded_of_view h]
    split <;> exact ⟨h, rfl⟩
  | submitWithdrawal | moveOrder => exact ⟨h, rfl⟩

theorem startPixCall_view (request : PixRequest) : pixView id own (startPixCall env request s).1 = pixView id own s := by
  cases startPixCall_received env request s with
  | answered _ _ hr | recording _ hr | refused _ _ hr | burning _ _ _ _ hr | moved _ _ hr =>
    exact congrArg (fun r => pixView id own r.1) hr

theorem startPixCall_apart (request : PixRequest) (hs : s.Apart id own user) :
    (startPixCall env request s).1.Apart id own user := by
  cases startPixCall_received env request s with
  | answered _ _ hr | recording _ hr | refused _ _ hr | burning _ _ _ _ hr | moved _ _ hr =>
    rw [hr]
    exact hs.of_same rfl rfl

end PixViews

/-! ### Authorizations -/

section Authorizations
variable (runtime : Runtime) (id : String) (own : String → Bool) (user : String)

/-- An authorization has a name of the receivable's if it is about it and not the user's. -/
structure FinancialAuthorization.Apart (a : FinancialAuthorization) : Prop where
  named : own a.id = decide (a.resourceId = some id ∧ a.userId ≠ user)
  nonce : own a.nonce = own a.id
  payloadNonce : a.payload.nonce = a.nonce
  payloadHash : a.payloadHash = hashPayload runtime a.payload

def authorizationsView (s : AuthorizationStore) : List FinancialAuthorization := s.authorizations.filter (own ·.id)

/-- The authorization of an assignment that the user does not own. -/
structure FinancialAuthorizationConsumption.About (rid : String) (input : FinancialAuthorizationConsumption) : Prop where
  resourceId : input.resourceId = some rid
  userId : rid = id → input.userId ≠ user

end Authorizations

section AuthorizationViews
variable {runtime : Runtime} {id rid user : String} {own : String → Bool} {s t : AuthorizationStore}
  {input : FinancialAuthorizationConsumption} {now : Int}

theorem findAuthorization_of_own {aid : String} (howned : own aid = true) :
    findAuthorization s aid = Table.find FinancialAuthorization.id aid (authorizationsView own s) :=
  (Table.find_filter fun a _ haid => by rw [haid]; exact howned).symm

theorem findAuthorization_of_view (h : authorizationsView own s = authorizationsView own t) {aid : String}
    (howned : own aid = true) : findAuthorization s aid = findAuthorization t aid := by
  rw [findAuthorization_of_own howned, findAuthorization_of_own howned, h]

theorem id_of_findAuthorization {aid : String} {a : FinancialAuthorization} (h : findAuthorization s aid = some a) :
    a.id = aid :=
  Table.key_of_find h

/-- An authorization can be consumed for a receivable only under a name of the receivable's. -/
theorem own_of_matches (hs : ∀ a ∈ s.authorizations, a.Apart runtime id own user) (hinput : input.About id user rid)
    {a : FinancialAuthorization} (ha : findAuthorization s input.authorizationId = some a)
    (huser : a.userId = input.userId) (hresource : a.resourceId = input.resourceId) :
    own input.authorizationId = decide (rid = id) := by
  have hown := (hs a (Table.mem_of_find ha)).named
  rw [id_of_findAuthorization ha, hresource, hinput.resourceId, huser] at hown
  rw [hown]
  by_cases hrid : rid = id
  · simp [hrid, hinput.userId hrid]
  · simp [hrid]

/-- What an assignment consumes. -/
def consumable (s : AuthorizationStore) (input : FinancialAuthorizationConsumption) (now : Int) :
    Option FinancialAuthorization :=
  (findAuthorization s input.authorizationId).filter (·.Consumable input now)

theorem consumable_eq_none (hs : ∀ a ∈ s.authorizations, a.Apart runtime id own user) (hinput : input.About id user rid)
    (hown : own input.authorizationId ≠ decide (rid = id)) : consumable s input now = none := by
  refine Option.filter_eq_none_iff.mpr fun a ha hconsumable => ?_
  obtain ⟨huser, -, hresource, -⟩ := of_decide_eq_true hconsumable
  exact hown (own_of_matches hs hinput ha huser hresource)

theorem consumable_same (hs : ∀ a ∈ s.authorizations, a.Apart runtime id own user)
    (ht : ∀ a ∈ t.authorizations, a.Apart runtime id own user) (hinput : input.About id user id)
    (h : authorizationsView own s = authorizationsView own t) : consumable s input now = consumable t input now := by
  cases hown : own input.authorizationId with
  | true => rw [consumable, consumable, findAuthorization_of_view h hown]
  | false =>
    have hne : own input.authorizationId ≠ decide (id = id) := by simp [hown]
    rw [consumable_eq_none hs hinput hne, consumable_eq_none ht hinput hne]

theorem checkConsumable_matches {a : FinancialAuthorization} (h : checkConsumable s input now = .ok a) :
    findAuthorization s input.authorizationId = some a ∧ a.userId = input.userId ∧ a.resourceId = input.resourceId := by
  unfold checkConsumable at h
  obtain ⟨b, hb, h⟩ := orThrow_bind_eq_ok.mp h
  obtain ⟨hfind, huser⟩ := Option.filter_eq_some_iff.mp hb
  obtain ⟨-, h⟩ := throwIf_bind_eq_ok.mp h
  obtain ⟨-, h⟩ := throwIf_bind_eq_ok.mp h
  obtain ⟨-, h⟩ := throwIf_bind_eq_ok.mp h
  obtain ⟨-, h⟩ := throwIf_bind_eq_ok.mp h
  obtain ⟨hresource, h⟩ := throwIf_bind_eq_ok.mp h
  obtain ⟨-, h⟩ := throwIf_bind_eq_ok.mp h
  obtain ⟨-, h⟩ := throwIf_bind_eq_ok.mp h
  obtain rfl := pure_eq_ok.mp h
  exact ⟨hfind, of_decide_eq_true huser, Decidable.not_not.mp hresource⟩

/-- The check of an assignment's authorization comes out alike. -/
theorem checkConsumable_same (hs : ∀ a ∈ s.authorizations, a.Apart runtime id own user)
    (ht : ∀ a ∈ t.authorizations, a.Apart runtime id own user) (hinput : input.About id user id)
    (h : authorizationsView own s = authorizationsView own t) :
    (checkConsumable s input now).toOption = (checkConsumable t input now).toOption := by
  have hnone : ∀ {s : AuthorizationStore}, (∀ a ∈ s.authorizations, a.Apart runtime id own user) →
      own input.authorizationId = false → (checkConsumable s input now).toOption = none := by
    intro s hs hown
    cases hcheck : checkConsumable s input now with
    | error e => rfl
    | ok a =>
      obtain ⟨hfind, huser, hresource⟩ := checkConsumable_matches hcheck
      have htrue := own_of_matches hs hinput hfind huser hresource
      rw [hown, decide_eq_true rfl] at htrue
      cases htrue
  cases hown : own input.authorizationId with
  | true => simp only [checkConsumable, findAuthorization_of_view h hown]
  | false => rw [hnone hs hown, hnone ht hown]

/-! What the writes do to the view -/

theorem setConsumed_eq : s.setConsumed input now =
    match consumable s input now with
    | none => s
    | some _ =>
      { authorizations := Table.modify FinancialAuthorization.id input.authorizationId
          (fun r => { r with consumedAt := some now }) s.authorizations
        journal := .consumed input now :: s.journal } := rfl

theorem authorizationsView_modify {aid : String} {change : FinancialAuthorization → FinancialAuthorization}
    {journal : List AuthorizationEvent} (hid : ∀ a, (change a).id = a.id) :
    authorizationsView own ⟨Table.modify FinancialAuthorization.id aid change s.authorizations, journal⟩ =
      Table.modify FinancialAuthorization.id aid change (authorizationsView own s) :=
  Table.filter_modify fun a => congrArg own (hid a)

theorem modify_view_of_not_own {aid : String} {change : FinancialAuthorization → FinancialAuthorization}
    (hown : own aid = false) :
    Table.modify FinancialAuthorization.id aid change (authorizationsView own s) = authorizationsView own s := by
  refine Table.modify_of_not_mem fun hmem => ?_
  obtain ⟨a, ha, rfl⟩ := List.mem_map.mp hmem
  rw [(List.mem_filter.mp ha).2] at hown
  cases hown

theorem setConsumed_same (hs : ∀ a ∈ s.authorizations, a.Apart runtime id own user)
    (ht : ∀ a ∈ t.authorizations, a.Apart runtime id own user) (hinput : input.About id user id)
    (h : authorizationsView own s = authorizationsView own t) :
    authorizationsView own (s.setConsumed input now) = authorizationsView own (t.setConsumed input now) := by
  rw [setConsumed_eq, setConsumed_eq, consumable_same hs ht hinput h]
  cases consumable t input now with
  | none => exact h
  | some a =>
    dsimp only
    rw [authorizationsView_modify, authorizationsView_modify, h] <;> intro a <;> rfl

theorem setConsumed_unseen (hs : ∀ a ∈ s.authorizations, a.Apart runtime id own user) (hinput : input.About id user rid)
    (hrid : rid ≠ id) : authorizationsView own (s.setConsumed input now) = authorizationsView own s := by
  rw [setConsumed_eq]
  cases hown : own input.authorizationId with
  | true =>
    rw [consumable_eq_none hs hinput (by simp [hown, hrid])]
  | false =>
    split
    · rfl
    · refine (authorizationsView_modify ?_).trans (modify_view_of_not_own hown)
      exact fun _ => rfl

theorem setConsumed_apart (hs : ∀ a ∈ s.authorizations, a.Apart runtime id own user) :
    ∀ a ∈ (s.setConsumed input now).authorizations, a.Apart runtime id own user := by
  rw [setConsumed_eq]
  split
  · exact hs
  · intro a ha
    obtain ⟨b, hb, rfl⟩ := Table.mem_modify.mp ha
    split
    · exact { hs b hb with }
    · exact hs b hb

end AuthorizationViews

end CredBridge.Api
