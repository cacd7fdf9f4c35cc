import CredBridge.Api.PixCallbacks

/-! # What the steps of a callback do

Each call does at most one thing for its event with each step, and goes on to what is still to be done. Only the
insertion of the event's row stands apart: it comes first, and once. -/

namespace CredBridge.Api
open Concurrent Contracts Result Submission

/-- Every delivery of an event carries the callback that the outbox has for it. -/
def FromOutbox (outbox : String → Callback) : Op PixRequest PixReply → Prop
  | .start (.callback callback) => callback = outbox callback.eventId
  | _ => True

instance (outbox : String → Callback) : (op : Op PixRequest PixReply) → Decidable (FromOutbox outbox op)
  | .start (.callback callback) => inferInstanceAs (Decidable (callback = outbox callback.eventId))
  | .start (.submitWithdrawal ..) | .start (.moveOrder ..) | .resume .. | .crash _ => instDecidableTrue

theorem FromOutbox.allows {σ : Type} {outbox : String → Callback} {c : Config (PixState σ) PixCall}
    {op : Op PixRequest PixReply} (h : FromOutbox outbox op) :
    Allows (fun _ request => FromOutbox outbox (.start request)) (fun _ _ _ => True) c op := by
  cases op with
  | start request => exact h
  | resume i reply => exact fun _ _ => trivial
  | crash i => trivial

def PixCall.act? : PixCall → Option Act
  | .updatePixColumns .. => some .updatePixColumns
  | .failDeposit .. => some .failDeposit
  | .mint .. => some .mint
  | .approve .. => some .approve
  | .auditConfirmed .. => some .auditConfirmed
  | .auditMintFailed .. => some .auditMintFailed
  | .updateStatus .. => some .updateStatus
  | .auditStatus .. => some .auditStatus
  | .markPaid .. => some .markPaid
  | .auditPaid .. => some .auditPaid
  | .settleOnChain .. => some .settleOnChain
  | .markSettled .. => some .markSettled
  | .createSettlement .. => some .createSettlement
  | .recordTxHash .. => some .recordTxHash
  | .recordEvent _ | .loadTransaction _ | .findCollection _ | .findReceivable .. | .findSettled .. | .burn ..
  | .createTransaction _ | .auditCreated .. | .orderWithdrawal .. | .setPixOrder .. => none

/-- What a call may still do for its event. -/
def PixCall.acts : PixCall → List Act
  | .loadTransaction _ | .updatePixColumns .. =>
    [.updatePixColumns, .failDeposit, .mint, .approve, .auditConfirmed, .auditMintFailed, .updateStatus, .auditStatus]
  | .failDeposit .. => [.failDeposit]
  | .mint .. => [.mint, .approve, .auditConfirmed, .auditMintFailed]
  | .approve .. => [.approve, .auditConfirmed, .auditMintFailed]
  | .auditConfirmed .. => [.auditConfirmed, .auditMintFailed]
  | .auditMintFailed .. => [.auditMintFailed]
  | .updateStatus .. => [.updateStatus, .auditStatus]
  | .auditStatus .. => [.auditStatus]
  | .findCollection _ | .markPaid .. =>
    [.markPaid, .auditPaid, .settleOnChain, .markSettled, .createSettlement, .recordTxHash]
  | .findReceivable .. | .auditPaid .. =>
    [.auditPaid, .settleOnChain, .markSettled, .createSettlement, .recordTxHash]
  | .findSettled .. | .settleOnChain .. => [.settleOnChain, .markSettled, .createSettlement, .recordTxHash]
  | .markSettled .. => [.markSettled, .createSettlement, .recordTxHash]
  | .createSettlement .. => [.createSettlement, .recordTxHash]
  | .recordTxHash .. => [.recordTxHash]
  | .recordEvent _ | .burn .. | .createTransaction _ | .auditCreated .. | .orderWithdrawal .. | .setPixOrder .. => []

def PixCall.done (call : PixCall) : List (String × Act) :=
  match call.callback?, call.act? with
  | some callback, some act => [(callback.eventId, act)]
  | _, _ => []

/-- The call works on the event of the other one, and does not repeat what that one did. -/
structure PixCall.Follows (call next : PixCall) : Prop where
  callback : next.callback? = call.callback?
  acts : ∀ act ∈ next.acts, act ∈ call.acts ∧ call.act? ≠ some act

section Steps
variable {σ : Type} {env : PixEnv σ} {s : PixState σ} {call next : PixCall}

theorem acts_of_act? {act : Act} (h : call.act? = some act) : act ∈ call.acts := by
  cases call <;> simp only [PixCall.act?, reduceCtorEq, Option.some.injEq] at h <;> subst h <;> simp [PixCall.acts]

theorem execute_journal (value : String) (h : call.submits env = none) :
    (call.execute env value s).journal = s.journal ++ call.done := by
  cases call with
  | recordEvent callback =>
    simp only [PixCall.execute]
    split <;> exact (List.append_nil _).symm
  | createTransaction dto =>
    simp only [PixCall.execute]
    split <;> exact (List.append_nil _).symm
  | orderWithdrawal t dto =>
    simp only [PixCall.execute, PixState.orderWithdrawal]
    split <;> exact (List.append_nil _).symm
  | loadTransaction | findCollection | findReceivable | findSettled | auditCreated | setPixOrder =>
    exact (List.append_nil _).symm
  | mint | settleOnChain | burn => simp [PixCall.submits] at h
  | updatePixColumns | failDeposit | approve | auditConfirmed | auditMintFailed | updateStatus | auditStatus
  | markPaid | auditPaid | markSettled | createSettlement | recordTxHash => rfl

theorem landed_journal {calls : LedgerCalls} (chain : σ) (h : call.submits env = some calls) :
    (call.landed s chain).journal = s.journal ++ call.done := by
  cases call <;> simp only [PixCall.submits, reduceCtorEq] at h
  case mint | settleOnChain => rfl
  case burn => exact (List.append_nil _).symm

theorem execute_of_submits {calls : LedgerCalls} (value : String) (h : call.submits env = some calls) :
    call.execute env value s = s := by
  cases call <;> simp only [PixCall.submits, reduceCtorEq] at h <;> rfl

theorem confirmed_journal (txHash : String) : (call.confirmed env txHash s).1.journal = s.journal := by
  cases call <;> rfl

theorem PixCall.Follows.of (hcallback : next.callback? = call.callback?)
    (hacts : next.acts.all (fun act => decide (act ∈ call.acts ∧ call.act? ≠ some act)) = true) :
    call.Follows next :=
  ⟨hcallback, fun act hact => of_decide_eq_true (List.all_eq_true.mp hacts act hact)⟩

theorem dispatchOrder_follows {t : PixTransaction} {dto : PixOrderCallback}
    (h : dispatchOrder env t dto = .next next) : (PixCall.updatePixColumns t dto).Follows next := by
  unfold dispatchOrder at h
  split at h
  · unfold confirmDeposit at h
    split at h
    · cases h
      exact .of rfl rfl
    · split at h <;> cases h <;> exact .of rfl rfl
  · split at h
    · cases h
      exact .of rfl rfl
    · split at h
      · cases h
        exact .of rfl rfl
      · split at h <;> cases h
        exact .of rfl rfl

theorem afterSettlement_follows {dto : PixCollectionCallback} {collection : Option ReceivableCollection}
    {txHash : Option String} (h : afterSettlement dto collection txHash = .next next) :
    ∃ collection txHash, next = .recordTxHash dto collection txHash := by
  unfold afterSettlement at h
  split at h <;> cases h
  exact ⟨_, _, rfl⟩

theorem settleInvoice_follows {now : String} {dto : PixCollectionCallback} {collection : Option ReceivableCollection}
    (h : settleInvoice env now s dto collection = .next next) :
    (PixCall.findSettled dto collection).Follows next := by
  unfold settleInvoice at h
  split at h
  · cases h
  · split at h
    · obtain ⟨_, _, rfl⟩ := afterSettlement_follows h
      exact .of rfl rfl
    · split at h <;> cases h <;> exact .of rfl rfl

theorem proceed_follows {value : String} (hcall : ∀ callback, call ≠ .recordEvent callback)
    (h : call.proceed env value s = .next next) : call.Follows next := by
  cases call with
  | recordEvent callback => exact absurd rfl (hcall callback)
  | loadTransaction dto =>
    simp only [PixCall.proceed] at h
    split at h <;> cases h
    exact .of rfl rfl
  | updatePixColumns t dto => exact dispatchOrder_follows h
  | findCollection dto =>
    simp only [PixCall.proceed] at h
    split at h <;> cases h <;> exact .of rfl rfl
  | findReceivable dto collection =>
    simp only [PixCall.proceed] at h
    split at h <;> cases h <;> exact .of rfl rfl
  | findSettled dto collection => exact settleInvoice_follows h
  | createSettlement dto collection receivable txHash =>
    obtain ⟨_, _, rfl⟩ := afterSettlement_follows h
    exact .of rfl rfl
  | createTransaction dto =>
    simp only [PixCall.proceed] at h
    split at h <;> cases h
    exact .of rfl rfl
  | approve | updateStatus | markPaid | auditPaid | markSettled | auditCreated | orderWithdrawal =>
    cases h
    exact .of rfl rfl
  | failDeposit | auditConfirmed | auditMintFailed | auditStatus | recordTxHash | setPixOrder | mint | settleOnChain
  | burn => cases h

theorem rescue_follows {message : String} (h : call.rescue message = .next next) : call.Follows next := by
  cases call <;> cases h <;> exact .of rfl rfl

theorem confirmed_follows {txHash : String} (h : (call.confirmed env txHash s).2 = .next next) :
    call.Follows next := by
  cases call with
  | mint | settleOnChain =>
    cases h
    exact .of rfl rfl
  | burn userId dto tx =>
    simp only [PixCall.confirmed] at h
    split at h <;> cases h
    exact .of rfl rfl
  | _ => cases h

end Steps

/-! ### A step of a call -/

/-- Where a call stands after a reply: it waits on, its statement was done, it threw, or its transaction was not
    included, was included too late, or was confirmed. -/
inductive Stepped {σ : Type} (env : PixEnv σ) (call : PixCall) (s : PixState σ) (r : PixState σ × Option PixCall) :
    PixReply → Prop where
  | waits (reply : PixReply) (hr : r = (s, some call)) : Stepped env call s r reply
  | ok (value : String) (hsubmits : call.submits env = none)
      (hr : r = call.goOn (call.execute env value s) (call.proceed env value s)) : Stepped env call s r (.ok value)
  | threw (executed : Option String) (message : String)
      (hr : r = call.goOn (executed.elim s (call.execute env · s)) (call.rescue message)) :
    Stepped env call s r (.threw executed message)
  | never (fate : Fate) (time : Nat) (txHash message : String) (calls : LedgerCalls)
      (hsubmits : call.submits env = some calls) (hfate : land (env.execute time calls s.chain) fate = .never)
      (hr : r = call.goOn s (call.rescue message)) : Stepped env call s r (.submitted fate time txHash message)
  | late (fate : Fate) (time : Nat) (txHash message : String) (calls : LedgerCalls) (chain : σ)
      (hsubmits : call.submits env = some calls) (hfate : land (env.execute time calls s.chain) fate = .late chain)
      (hr : r = call.goOn (call.landed s chain) (call.rescue message)) :
    Stepped env call s r (.submitted fate time txHash message)
  | confirmed (fate : Fate) (time : Nat) (txHash message : String) (calls : LedgerCalls) (chain : σ)
      (hsubmits : call.submits env = some calls) (hfate : land (env.execute time calls s.chain) fate = .inTime chain)
      (hr : r = call.goOn (call.confirmed env txHash (call.landed s chain)).1
        (call.confirmed env txHash (call.landed s chain)).2) :
    Stepped env call s r (.submitted fate time txHash message)

section Stepped
variable {σ : Type} {env : PixEnv σ} {s : PixState σ} {call next : PixCall} {reply : PixReply}

theorem resumePixCall_stepped (env : PixEnv σ) (call : PixCall) (reply : PixReply) (s : PixState σ) :
    Stepped env call s (resumePixCall env call reply s) reply := by
  cases reply with
  | ok value =>
    cases hsubmits : call.submits env with
    | none => exact .ok value hsubmits (by simp only [resumePixCall, hsubmits])
    | some calls => exact .waits _ (by simp only [resumePixCall, hsubmits])
  | threw executed message => exact .threw executed message rfl
  | submitted fate time txHash message =>
    cases hsubmits : call.submits env with
    | none => exact .waits _ (by simp only [resumePixCall, hsubmits])
    | some calls =>
      cases hfate : land (env.execute time calls s.chain) fate with
      | never =>
        exact .never fate time txHash message calls hsubmits hfate
          (by simp only [resumePixCall, hsubmits, submitCall, hfate])
      | late chain =>
        exact .late fate time txHash message calls chain hsubmits hfate
          (by simp only [resumePixCall, hsubmits, submitCall, hfate])
      | inTime chain =>
        exact .confirmed fate time txHash message calls chain hsubmits hfate
          (by simp only [resumePixCall, hsubmits, submitCall, hfate])

@[simp] theorem goOn_journal (flow : Flow) : (call.goOn s flow).1.journal = s.journal := by
  cases flow with
  | next | raised => rfl
  | finished =>
    simp only [PixCall.goOn]
    split <;> rfl

theorem goOn_next {flow : Flow} {next : PixCall} (h : (call.goOn s flow).2 = some next) : flow = .next next := by
  cases flow with
  | next call' =>
    cases h
    rfl
  | finished | raised => cases h

/-- What holds of where a call goes on, after its statement, its rescue or its transaction, holds after each reply. -/
theorem resume_establishes {P : PixState σ → PixCall → Prop} (hcall : P s call)
    (hproceed : ∀ value next, call.proceed env value s = .next next → P (call.execute env value s) next)
    (hrescue : ∀ s' message next, call.rescue message = .next next → P s' next)
    (hconfirmed : ∀ chain txHash next, (call.confirmed env txHash (call.landed s chain)).2 = .next next →
      P (call.confirmed env txHash (call.landed s chain)).1 next) (reply : PixReply) :
    ∀ next ∈ (resumePixCall env call reply s).2, P (resumePixCall env call reply s).1 next := by
  have hgoOn : ∀ {s' : PixState σ} {flow : Flow}, (∀ next, flow = .next next → P s' next) →
      ∀ next ∈ (call.goOn s' flow).2, P (call.goOn s' flow).1 next := by
    intro s' flow h next hnext
    obtain rfl := goOn_next hnext
    exact h next rfl
  cases resumePixCall_stepped env call reply s with
  | waits _ hr =>
    rw [hr]
    intro next hnext
    cases hnext
    exact hcall
  | ok value _ hr =>
    rw [hr]
    exact hgoOn (hproceed value)
  | threw executed message hr =>
    rw [hr]
    exact hgoOn (hrescue _ message)
  | never _ _ _ _ _ _ _ hr | late _ _ _ _ _ _ _ _ hr =>
    rw [hr]
    exact hgoOn (hrescue _ _)
  | confirmed _ _ txHash _ _ chain _ _ hr =>
    rw [hr]
    exact hgoOn (hconfirmed chain txHash)

theorem goOn_relates {R : PixState σ → PixState σ → Prop} (hrefl : ∀ s, R s s)
    (hacknowledge : ∀ s callback, R s (s.acknowledge callback)) (flow : Flow) : R s (call.goOn s flow).1 := by
  cases flow with
  | next | raised => exact hrefl s
  | finished =>
    simp only [PixCall.goOn]
    split
    · exact hacknowledge s _
    · exact hrefl s

/-- A preorder that contains an answer to the caller, a call's statement, its transaction and its confirmation contains
    what each reply does. -/
theorem resume_relates {R : PixState σ → PixState σ → Prop} (hrefl : ∀ s, R s s)
    (htrans : ∀ s₁ s₂ s₃, R s₁ s₂ → R s₂ s₃ → R s₁ s₃) (hacknowledge : ∀ s callback, R s (s.acknowledge callback))
    (hexecute : ∀ value, R s (call.execute env value s))
    (hlanded : ∀ chain calls, call.submits env = some calls → R s (call.landed s chain))
    (hconfirmed : ∀ txHash s', R s' (call.confirmed env txHash s').1) (reply : PixReply) :
    R s (resumePixCall env call reply s).1 := by
  have hgoOn : ∀ s₁ flow, R s s₁ → R s (call.goOn s₁ flow).1 := fun s₁ flow h =>
    htrans _ _ _ h (goOn_relates hrefl hacknowledge flow)
  cases resumePixCall_stepped env call reply s with
  | waits _ hr =>
    rw [hr]
    exact hrefl s
  | ok value _ hr =>
    rw [hr]
    exact hgoOn _ _ (hexecute value)
  | threw executed message hr =>
    rw [hr]
    refine hgoOn _ _ ?_
    cases executed with
    | none => exact hrefl s
    | some value => exact hexecute value
  | never _ _ _ _ _ _ _ hr =>
    rw [hr]
    exact hgoOn _ _ (hrefl s)
  | late _ _ _ _ calls chain hsubmits _ hr =>
    rw [hr]
    exact hgoOn _ _ (hlanded chain calls hsubmits)
  | confirmed _ _ txHash _ calls chain hsubmits _ hr =>
    rw [hr]
    exact hgoOn _ _ (htrans _ _ _ (hlanded chain calls hsubmits) (hconfirmed txHash _))

/-- What an answer, a call's statement, its transaction and its confirmation leave as it was, each reply does. -/
theorem resume_keeps {α : Type} (f : PixState σ → α) (hacknowledge : ∀ s callback, f (s.acknowledge callback) = f s)
    (hexecute : ∀ value, f (call.execute env value s) = f s)
    (hlanded : ∀ chain calls, call.submits env = some calls → f (call.landed s chain) = f s)
    (hconfirmed : ∀ txHash s', f (call.confirmed env txHash s').1 = f s') (reply : PixReply) :
    f (resumePixCall env call reply s).1 = f s :=
  resume_relates (R := fun s s' => f s' = f s) (fun _ => rfl) (fun _ _ _ h h' => h'.trans h) hacknowledge hexecute hlanded
    hconfirmed reply

/-- What a call wrote before it threw is what its statement writes, or nothing. -/
theorem executed_journal (executed : Option String) :
    (executed.elim s (call.execute env · s)).journal = s.journal ∨
      (executed.elim s (call.execute env · s)).journal = s.journal ++ call.done := by
  cases executed with
  | none => exact .inl rfl
  | some value =>
    cases hsubmits : call.submits env with
    | none => exact .inr (execute_journal value hsubmits)
    | some calls => exact .inl (congrArg PixState.journal (execute_of_submits value hsubmits))

/-- A call past the insertion of its event does at most its one act, and goes on to what is left. -/
structure Progress (call : PixCall) (s : PixState σ) (r : PixState σ × Option PixCall) : Prop where
  journal : r.1.journal = s.journal ∨ r.1.journal = s.journal ++ call.done
  next : ∀ next, r.2 = some next → next = call ∧ r.1.journal = s.journal ∨ call.Follows next

theorem Progress.goOn {s₁ : PixState σ} {flow : Flow}
    (hjournal : s₁.journal = s.journal ∨ s₁.journal = s.journal ++ call.done)
    (hflow : ∀ next, flow = .next next → call.Follows next) : Progress call s (call.goOn s₁ flow) where
  journal := by rwa [goOn_journal]
  next _ h := .inr (hflow _ (goOn_next h))

theorem resume_progress (hcall : ∀ callback, call ≠ .recordEvent callback) (reply : PixReply) (s : PixState σ) :
    Progress call s (resumePixCall env call reply s) := by
  cases resumePixCall_stepped env call reply s with
  | waits _ hr =>
    rw [hr]
    exact ⟨.inl rfl, fun _ h => .inl ⟨(Option.some.inj h).symm, rfl⟩⟩
  | ok value hsubmits hr =>
    rw [hr]
    exact .goOn (.inr (execute_journal value hsubmits)) fun _ h => proceed_follows hcall h
  | threw executed message hr =>
    rw [hr]
    exact .goOn (executed_journal executed) fun _ h => rescue_follows h
  | never _ _ _ message calls hsubmits _ hr =>
    rw [hr]
    exact .goOn (.inl rfl) fun _ h => rescue_follows h
  | late _ _ _ message calls chain hsubmits _ hr =>
    rw [hr]
    exact .goOn (.inr (landed_journal chain hsubmits)) fun _ h => rescue_follows h
  | confirmed _ _ txHash message calls chain hsubmits _ hr =>
    rw [hr]
    refine .goOn (.inr ?_) fun _ h => confirmed_follows h
    rw [confirmed_journal, landed_journal chain hsubmits]

/-! The rows of the events -/

theorem recorded_record (callback : Callback) (eventId : String) :
    (s.record callback).recorded eventId = (s.recorded eventId || decide (callback.eventId = eventId)) := by
  unfold PixState.recorded PixState.record Table.find
  rw [List.find?_append, Option.isSome_or, List.find?_singleton]
  split <;> simp_all [Callback.eventId]

theorem recorded_of_record {callback : Callback} {eventId : String} (h : (s.record callback).recorded eventId = true) :
    s.recorded eventId = true ∨ callback.eventId = eventId := by
  rw [recorded_record, Bool.or_eq_true] at h
  exact h.imp_right of_decide_eq_true

theorem recorded_of_webhookEvents {s' : PixState σ} (h : s'.webhookEvents = s.webhookEvents) (eventId : String) :
    s'.recorded eventId = s.recorded eventId := by
  unfold PixState.recorded
  rw [h]

theorem execute_webhookEvents (value : String) (hcall : ∀ callback, call ≠ .recordEvent callback) :
    (call.execute env value s).webhookEvents = s.webhookEvents := by
  cases call with
  | recordEvent callback => exact absurd rfl (hcall callback)
  | createTransaction dto =>
    simp only [PixCall.execute]
    split <;> rfl
  | orderWithdrawal t dto =>
    simp only [PixCall.execute, PixState.orderWithdrawal]
    split <;> rfl
  | _ => rfl

theorem landed_webhookEvents (chain : σ) : (call.landed s chain).webhookEvents = s.webhookEvents := by
  cases call <;> rfl

theorem confirmed_webhookEvents (txHash : String) : (call.confirmed env txHash s).1.webhookEvents = s.webhookEvents := by
  cases call <;> rfl

theorem resume_webhookEvents (hcall : ∀ callback, call ≠ .recordEvent callback) (reply : PixReply) (s : PixState σ) :
    (resumePixCall env call reply s).1.webhookEvents = s.webhookEvents :=
  resume_keeps PixState.webhookEvents (fun _ _ => rfl) (fun value => execute_webhookEvents value hcall)
    (fun chain _ _ => landed_webhookEvents chain) (fun txHash _ => confirmed_webhookEvents txHash) reply

/-- What the insertion of an event's row did: the row was there or was not written, or it is there now and the call goes
    on. -/
inductive Recorded {σ : Type} (env : PixEnv σ) (callback : Callback) (s : PixState σ)
    (r : PixState σ × Option PixCall) : PixReply → Prop where
  | waits (reply : PixReply) (hr : r = (s, some (.recordEvent callback))) : Recorded env callback s r reply
  | duplicate (value : String) (hrecorded : s.recorded callback.eventId = true)
      (hr : r = (s.acknowledge callback, none)) : Recorded env callback s r (.ok value)
  | raised (executed : Option String) (message : String) (hr : r = (s, none)) :
    Recorded env callback s r (.threw executed message)
  | lost (value message : String) (hnew : s.recorded callback.eventId = false) (hr : r = (s.record callback, none)) :
    Recorded env callback s r (.threw (some value) message)
  | next (value : String) (hnew : s.recorded callback.eventId = false) (next : PixCall)
      (hcallback : next.callback? = some callback)
      (hflow : (PixCall.recordEvent callback).proceed env value s = .next next)
      (hr : r = (s.record callback, some next)) : Recorded env callback s r (.ok value)
  | finished (value : String) (hnew : s.recorded callback.eventId = false)
      (hflow : (PixCall.recordEvent callback).proceed env value s = .finished)
      (hr : r = ((s.record callback).acknowledge callback, none)) : Recorded env callback s r (.ok value)

theorem proceed_recordEvent_callback {callback : Callback} {value : String}
    (h : (PixCall.recordEvent callback).proceed env value s = .next next) :
    s.recorded callback.eventId = false ∧ next.callback? = some callback := by
  simp only [PixCall.proceed] at h
  split at h
  · cases h
  · next hnew =>
    refine ⟨Bool.eq_false_iff.mpr hnew, ?_⟩
    cases callback with
    | order dto =>
      cases h
      rfl
    | collection dto =>
      simp only at h
      split at h <;> cases h
      rfl

theorem proceed_recordEvent_ne_raised {callback : Callback} {value : String} :
    (PixCall.recordEvent callback).proceed env value s ≠ .raised := by
  simp only [PixCall.proceed]
  split
  · exact nofun
  · cases callback with
    | order dto => exact nofun
    | collection dto =>
      dsimp only
      split <;> exact nofun

theorem resume_recorded (env : PixEnv σ) (callback : Callback) (reply : PixReply) (s : PixState σ) :
    Recorded env callback s (resumePixCall env (.recordEvent callback) reply s) reply := by
  cases resumePixCall_stepped env (.recordEvent callback) reply s with
  | waits _ hr => exact .waits _ hr
  | ok value _ hr =>
    cases hrecorded : s.recorded callback.eventId with
    | true =>
      refine .duplicate value hrecorded (hr.trans ?_)
      simp only [PixCall.execute, PixCall.proceed, hrecorded, ↓reduceIte]
      rfl
    | false =>
      have hexecute : (PixCall.recordEvent callback).execute env value s = s.record callback := by
        simp only [PixCall.execute, hrecorded, Bool.false_eq_true, ↓reduceIte]
      rw [hexecute] at hr
      cases hflow : (PixCall.recordEvent callback).proceed env value s with
      | next call =>
        rw [hflow] at hr
        exact .next value hrecorded call (proceed_recordEvent_callback hflow).2 hflow hr
      | finished =>
        rw [hflow] at hr
        exact .finished value hrecorded hflow hr
      | raised => exact absurd hflow proceed_recordEvent_ne_raised
  | threw executed message hr =>
    cases executed with
    | none => exact .raised none message hr
    | some value =>
      cases hrecorded : s.recorded callback.eventId with
      | true =>
        refine .raised (some value) message (hr.trans ?_)
        simp only [Option.elim, PixCall.execute, hrecorded, ↓reduceIte]
        rfl
      | false =>
        refine .lost value message hrecorded (hr.trans ?_)
        simp only [Option.elim, PixCall.execute, hrecorded, Bool.false_eq_true, ↓reduceIte]
        rfl
  | never _ _ _ _ _ hsubmits | late _ _ _ _ _ _ hsubmits | confirmed _ _ _ _ _ _ hsubmits => cases hsubmits

/-- A call goes on with its callback, or with none. -/
theorem next_callback (hnext : next ∈ (resumePixCall env call reply s).2) : next.callback? = call.callback? := by
  by_cases hrecord : ∃ callback, call = .recordEvent callback
  · obtain ⟨callback, rfl⟩ := hrecord
    cases resume_recorded env callback reply s with
    | waits _ hr =>
      rw [hr] at hnext
      cases hnext
      rfl
    | next _ _ next' hcallback _ hr =>
      rw [hr] at hnext
      cases hnext
      exact hcallback
    | duplicate _ _ hr | raised _ _ hr | lost _ _ _ hr | finished _ _ _ hr =>
      rw [hr] at hnext
      cases hnext
  · rcases (resume_progress (not_exists.mp hrecord) reply s).next next hnext with ⟨rfl, -⟩ | hfollows
    · rfl
    · exact hfollows.callback

/-- What a request does when it comes: it is answered, or refused, or it waits with its first call; or an order moves. -/
inductive Received {σ : Type} (env : PixEnv σ) (s : PixState σ) (r : PixState σ × Option PixCall) : PixRequest → Prop where
  | answered (callback : Callback) (hrecorded : s.recorded callback.eventId = true)
      (hr : r = (s.acknowledge callback, none)) : Received env s r (.callback callback)
  | recording (callback : Callback) (hr : r = (s, some (.recordEvent callback))) : Received env s r (.callback callback)
  | refused (userId : String) (dto : SubmitWithdrawalDto) (hr : r = (s, none)) :
    Received env s r (.submitWithdrawal userId dto)
  | burning (userId : String) (dto : SubmitWithdrawalDto) (tx : LedgerTx)
      (hprepared : prepareWithdrawal env.toStellarEnv env.users userId dto = .ok tx)
      (hr : r = (s, some (.burn userId dto tx))) : Received env s r (.submitWithdrawal userId dto)
  | moved (externalId : String) (status : PixService.PixOrderStatus) (hr : r = (s.moveOrder externalId status, none)) :
    Received env s r (.moveOrder externalId status)

theorem startPixCall_received (env : PixEnv σ) (request : PixRequest) (s : PixState σ) :
    Received env s (startPixCall env request s) request := by
  cases request with
  | callback callback =>
    cases hrecorded : s.recorded callback.eventId with
    | true => exact .answered callback hrecorded (by simp only [startPixCall, hrecorded, ↓reduceIte])
    | false => exact .recording callback (by simp only [startPixCall, hrecorded, Bool.false_eq_true, ↓reduceIte])
  | submitWithdrawal userId dto =>
    cases hprepared : prepareWithdrawal env.toStellarEnv env.users userId dto with
    | error e => exact .refused userId dto (by rw [startPixCall, hprepared]; rfl)
    | ok tx => exact .burning userId dto tx hprepared (by rw [startPixCall, hprepared]; rfl)
  | moveOrder externalId status => exact .moved externalId status rfl

/-- A new call records its callback's event, or burns what the prepared withdrawal burns. -/
theorem start_next {request : PixRequest} (h : call ∈ (startPixCall env request s).2) :
    (∃ callback, request = .callback callback ∧ call = .recordEvent callback) ∨
      ∃ userId dto tx, request = .submitWithdrawal userId dto ∧
        prepareWithdrawal env.toStellarEnv env.users userId dto = .ok tx ∧ call = .burn userId dto tx := by
  cases startPixCall_received env request s with
  | recording callback hr =>
    rw [hr] at h
    exact .inl ⟨callback, rfl, (Option.some.inj h).symm⟩
  | burning userId dto tx hprepared hr =>
    rw [hr] at h
    exact .inr ⟨userId, dto, tx, rfl, hprepared, (Option.some.inj h).symm⟩
  | answered _ _ hr | refused _ _ hr | moved _ _ hr =>
    rw [hr] at h
    cases h

theorem start_kept (env : PixEnv σ) (request : PixRequest) (s : PixState σ) :
    (startPixCall env request s).1.journal = s.journal ∧
      (startPixCall env request s).1.webhookEvents = s.webhookEvents := by
  cases startPixCall_received env request s with
  | answered _ _ hr | recording _ hr | refused _ _ hr | burning _ _ _ _ hr | moved _ _ hr =>
    rw [hr]
    exact ⟨rfl, rfl⟩

/-! What stays -/

def PixState.InvoiceSettled (s : PixState σ) (receivableId : String) : Prop :=
  ∃ r ∈ s.findReceivable receivableId, r.status = .other "settled"

theorem id_of_findReceivable {id : String} {r : ReceivableRow} (h : s.findReceivable id = some r) : r.id = id :=
  @Table.key_of_find _ _ (fun r : ReceivableRow => r.id) _ id r s.receivables h

/-- What was recorded, done and logged stays so; a receivable stays, and stays settled; a transaction stays its user's,
    and an order what was asked for. -/
structure PixState.Grows (s s' : PixState σ) : Prop where
  recorded : ∀ eventId, s.recorded eventId = true → s'.recorded eventId = true
  journal : s.journal ⊆ s'.journal
  auditLogs : s.auditLogs ⊆ s'.auditLogs
  receivable : ∀ id r, s.findReceivable id = some r → ∃ r', s'.findReceivable id = some r' ∧
    (r.status = .other "settled" → r'.status = .other "settled")
  transaction : ∀ id t, s.findTransaction id = some t → ∃ t', s'.findTransaction id = some t' ∧ t'.userId = t.userId
  withdrawalOrder : ∀ order ∈ s.withdrawalOrders, ∃ order' ∈ s'.withdrawalOrders, order'.request = order.request

namespace PixState.Grows

/-- Nothing but the logs changed, and what the other tables hold beside. -/
theorem of {s' : PixState σ} (hjournal : s.journal ⊆ s'.journal) (hlogs : s.auditLogs ⊆ s'.auditLogs)
    (hevents : s'.webhookEvents = s.webhookEvents) (hreceivables : s'.receivables = s.receivables)
    (htransactions : s'.transactions = s.transactions)
    (horders : s'.withdrawalOrders = s.withdrawalOrders) : s.Grows s' where
  recorded eventId h := (recorded_of_webhookEvents hevents eventId).trans h
  journal := hjournal
  auditLogs := hlogs
  receivable id r hr := by
    refine ⟨r, ?_, fun hsettled => hsettled⟩
    unfold PixState.findReceivable at hr ⊢
    rwa [hreceivables]
  transaction id t ht := by
    refine ⟨t, ?_, rfl⟩
    unfold PixState.findTransaction at ht ⊢
    rwa [htransactions]
  withdrawalOrder order horder := ⟨order, horders ▸ horder, rfl⟩

theorem refl (s : PixState σ) : s.Grows s := of (List.Subset.refl _) (List.Subset.refl _) rfl rfl rfl rfl

theorem trans {s₁ s₂ : PixState σ} (h : s.Grows s₁) (h' : s₁.Grows s₂) : s.Grows s₂ where
  recorded eventId hrecorded := h'.recorded eventId (h.recorded eventId hrecorded)
  journal := List.Subset.trans h.journal h'.journal
  auditLogs := List.Subset.trans h.auditLogs h'.auditLogs
  receivable id r hr := by
    obtain ⟨r₁, hr₁, hsettled₁⟩ := h.receivable id r hr
    obtain ⟨r₂, hr₂, hsettled₂⟩ := h'.receivable id r₁ hr₁
    exact ⟨r₂, hr₂, fun hsettled => hsettled₂ (hsettled₁ hsettled)⟩
  transaction id t ht := by
    obtain ⟨t₁, ht₁, huser₁⟩ := h.transaction id t ht
    obtain ⟨t₂, ht₂, huser₂⟩ := h'.transaction id t₁ ht₁
    exact ⟨t₂, ht₂, huser₂.trans huser₁⟩
  withdrawalOrder order horder := by
    obtain ⟨order₁, horder₁, hrequest₁⟩ := h.withdrawalOrder order horder
    obtain ⟨order₂, horder₂, hrequest₂⟩ := h'.withdrawalOrder order₁ horder₁
    exact ⟨order₂, horder₂, hrequest₂.trans hrequest₁⟩

theorem did (s : PixState σ) (eventId : String) (act : Act) : s.Grows (s.did eventId act) :=
  of (List.subset_append_left _ _) (List.Subset.refl _) rfl rfl rfl rfl

theorem audit (s : PixState σ) (log : AuditLog) : s.Grows (s.audit log) :=
  of (List.Subset.refl _) (List.subset_append_left _ _) rfl rfl rfl rfl

theorem record (s : PixState σ) (callback : Callback) : s.Grows (s.record callback) :=
  { refl s with
    recorded := fun eventId h => by
      rw [recorded_record, h]
      rfl }

theorem acknowledge (s : PixState σ) (callback : Callback) : s.Grows (s.acknowledge callback) :=
  of (List.Subset.refl _) (List.Subset.refl _) rfl rfl rfl rfl

theorem updateTransaction {change : PixTransaction → PixTransaction} (s : PixState σ) (id : String)
    (hid : ∀ t, (change t).id = t.id) (huser : ∀ t, (change t).userId = t.userId) :
    s.Grows (s.updateTransaction id change) where
  recorded _ h := h
  journal := List.Subset.refl _
  auditLogs := List.Subset.refl _
  receivable _ r hr := ⟨r, hr, fun hsettled => hsettled⟩
  transaction id' t ht := by
    have hfind : (s.updateTransaction id change).findTransaction id' =
        (s.findTransaction id').map fun t => if t.id = id then change t else t := Table.find_modify fun t h => (hid t).trans h
    rw [hfind, ht]
    refine ⟨_, rfl, ?_⟩
    dsimp only
    split
    · exact huser t
    · rfl
  withdrawalOrder order horder := ⟨order, horder, rfl⟩

theorem createTransaction (s : PixState σ) (t : PixTransaction) :
    s.Grows { s with transactions := s.transactions ++ [t] } where
  recorded _ h := h
  journal := List.Subset.refl _
  auditLogs := List.Subset.refl _
  receivable _ r hr := ⟨r, hr, fun hsettled => hsettled⟩
  transaction _ t' ht := ⟨t', Table.find_append ht, rfl⟩
  withdrawalOrder order horder := ⟨order, horder, rfl⟩

theorem orderWithdrawal (s : PixState σ) (request : PixWithdrawal) : s.Grows (s.orderWithdrawal request) := by
  unfold PixState.orderWithdrawal
  split
  · exact .refl s
  · exact
      { refl s with
        withdrawalOrder := fun order horder => ⟨order, List.mem_append_left _ horder, rfl⟩ }

theorem moveOrder (s : PixState σ) (externalId : String) (status : PixService.PixOrderStatus) :
    s.Grows (s.moveOrder externalId status) :=
  { refl s with
    withdrawalOrder := fun order horder => by
      refine ⟨_, Table.mem_modify.mpr ⟨order, horder, rfl⟩, ?_⟩
      split <;> rfl }

theorem invoiceSettled {s' : PixState σ} {receivableId : String} (h : s.Grows s')
    (hsettled : s.InvoiceSettled receivableId) : s'.InvoiceSettled receivableId := by
  obtain ⟨r, hr, hstatus⟩ := hsettled
  obtain ⟨r', hr', hkept⟩ := h.receivable receivableId r hr
  exact ⟨r', hr', hkept hstatus⟩

end PixState.Grows

theorem findReceivable_markSettled {dto : PixCollectionCallback} {collection : Option ReceivableCollection}
    {receivable : ReceivableRow} {txHash value id : String} :
    ((PixCall.markSettled dto collection receivable txHash).execute env value s).findReceivable id =
      (s.findReceivable id).map fun r =>
        if r.id = receivable.id then { r with status := .other "settled", paymentTxHash := some txHash } else r :=
  Table.find_modify fun _ h => h

theorem execute_grows (value : String) : s.Grows (call.execute env value s) := by
  cases call with
  | recordEvent callback =>
    simp only [PixCall.execute]
    split
    · exact .refl s
    · exact .record s callback
  | createTransaction =>
    simp only [PixCall.execute]
    split
    · exact .refl s
    · exact .createTransaction s _
  | orderWithdrawal => exact .orderWithdrawal s _
  | loadTransaction | findCollection | findReceivable | findSettled | mint | settleOnChain | burn => exact .refl s
  | auditCreated => exact .audit s _
  | setPixOrder => exact .updateTransaction s _ (fun _ => rfl) fun _ => rfl
  | markSettled dto collection receivable txHash =>
    refine { PixState.Grows.did s dto.eventId .markSettled with receivable := fun id r hr => ?_ }
    rw [findReceivable_markSettled, hr]
    refine ⟨_, rfl, fun hsettled => ?_⟩
    dsimp only
    split
    · rfl
    · exact hsettled
  | updatePixColumns | failDeposit | approve =>
    refine PixState.Grows.trans ?_ (.did _ _ _)
    exact .updateTransaction s _ (fun _ => rfl) fun _ => rfl
  | updateStatus t dto outcome =>
    refine (PixState.Grows.updateTransaction s _ (fun _ => ?_) fun _ => ?_).trans (.did _ _ _) <;> cases outcome <;> rfl
  | auditConfirmed | auditMintFailed | auditStatus | auditPaid => exact (PixState.Grows.audit s _).trans (.did _ _ _)
  | markPaid | createSettlement | recordTxHash =>
    exact .of (List.subset_append_left _ _) (List.Subset.refl _) rfl rfl rfl rfl

theorem landed_grows (chain : σ) : s.Grows (call.landed s chain) := by
  have hchain : s.Grows { s with chain } := .of (List.Subset.refl _) (List.Subset.refl _) rfl rfl rfl rfl
  cases call with
  | mint | settleOnChain => exact hchain.trans (.did _ _ _)
  | _ => exact hchain

theorem confirmed_grows (txHash : String) : s.Grows (call.confirmed env txHash s).1 := by
  cases call with
  | burn => exact .of (List.Subset.refl _) (List.Subset.refl _) rfl rfl rfl rfl
  | _ => exact .refl s

theorem resume_grows (env : PixEnv σ) (call : PixCall) (reply : PixReply) (s : PixState σ) :
    s.Grows (resumePixCall env call reply s).1 :=
  resume_relates PixState.Grows.refl (fun _ _ _ => .trans) .acknowledge execute_grows (fun chain _ _ => landed_grows chain)
    (fun txHash _ => confirmed_grows txHash) reply

theorem start_grows (env : PixEnv σ) (request : PixRequest) (s : PixState σ) :
    s.Grows (startPixCall env request s).1 := by
  cases startPixCall_received env request s with
  | answered callback _ hr => exact hr ▸ .acknowledge s callback
  | recording _ hr | refused _ _ hr | burning _ _ _ _ hr => exact hr ▸ .refl s
  | moved externalId status hr => exact hr ▸ .moveOrder s externalId status

/-! What is acknowledged -/

theorem goOn_acknowledged {flow : Flow} {callback : Callback}
    (h : callback ∈ (call.goOn s flow).1.acknowledged) :
    callback ∈ s.acknowledged ∨ call.callback? = some callback ∧ (call.goOn s flow).2 = none := by
  cases flow with
  | next | raised => exact .inl h
  | finished =>
    cases hcallback : call.callback? with
    | none =>
      simp only [PixCall.goOn, hcallback] at h
      exact .inl h
    | some callback' =>
      simp only [PixCall.goOn, hcallback] at h
      rcases List.mem_append.mp h with h | h
      · exact .inl h
      · exact .inr ⟨congrArg some (List.mem_singleton.mp h).symm, rfl⟩

/-- A statement is neither an answer nor a transaction. -/
theorem execute_untouched (value : String) :
    (call.execute env value s).acknowledged = s.acknowledged ∧ (call.execute env value s).chain = s.chain := by
  cases call with
  | recordEvent | createTransaction =>
    simp only [PixCall.execute]
    split <;> exact ⟨rfl, rfl⟩
  | orderWithdrawal =>
    simp only [PixCall.execute, PixState.orderWithdrawal]
    split <;> exact ⟨rfl, rfl⟩
  | _ => exact ⟨rfl, rfl⟩

theorem landed_acknowledged (chain : σ) : (call.landed s chain).acknowledged = s.acknowledged := by
  cases call <;> rfl

theorem confirmed_acknowledged (txHash : String) : (call.confirmed env txHash s).1.acknowledged = s.acknowledged := by
  cases call <;> rfl

theorem start_acknowledged {request : PixRequest} {callback : Callback}
    (h : callback ∈ (startPixCall env request s).1.acknowledged) :
    callback ∈ s.acknowledged ∨ request = .callback callback ∧ s.recorded callback.eventId = true := by
  cases startPixCall_received env request s with
  | answered callback' hrecorded hr =>
    rw [hr] at h
    rcases List.mem_append.mp h with h | h
    · exact .inl h
    · obtain rfl := List.mem_singleton.mp h
      exact .inr ⟨rfl, hrecorded⟩
  | recording _ hr | refused _ _ hr | burning _ _ _ _ hr | moved _ _ hr =>
    rw [hr] at h
    exact .inl h

/-- A call is answered when it is over. -/
theorem resume_acknowledged {callback : Callback}
    (h : callback ∈ (resumePixCall env call reply s).1.acknowledged) :
    callback ∈ s.acknowledged ∨ call.callback? = some callback ∧ (resumePixCall env call reply s).2 = none := by
  cases resumePixCall_stepped env call reply s with
  | waits _ hr =>
    rw [hr] at h
    exact .inl h
  | ok value _ hr =>
    rw [hr] at h ⊢
    exact (goOn_acknowledged h).imp_left ((execute_untouched value).1 ▸ ·)
  | threw executed message hr =>
    rw [hr] at h ⊢
    refine (goOn_acknowledged h).imp_left fun hmem => ?_
    cases executed with
    | none => exact hmem
    | some value => exact (execute_untouched value).1 ▸ hmem
  | never _ _ _ _ _ _ _ hr =>
    rw [hr] at h ⊢
    exact goOn_acknowledged h
  | late _ _ _ _ _ chain _ _ hr =>
    rw [hr] at h ⊢
    exact (goOn_acknowledged h).imp_left (landed_acknowledged chain ▸ ·)
  | confirmed _ _ txHash _ _ chain _ _ hr =>
    rw [hr] at h ⊢
    refine (goOn_acknowledged h).imp_left fun hmem => ?_
    rwa [confirmed_acknowledged, landed_acknowledged] at hmem

end Stepped
end CredBridge.Api
