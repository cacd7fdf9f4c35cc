import CredBridge.Api.PixEffects

/-! # Acknowledged callbacks

The row of an event is written before its effects, and from then on every delivery of the event is answered with a 2xx at
once. What is recorded is resolved, or a call carries it on. So an answer is given in vain where the call that carries
the event is still at work, or was lost with it: it crashed, it threw, or it returned without an effect. -/

namespace CredBridge.Api
open Concurrent Contracts Machine Result Submission

/-- The business effect of an order's callback. -/
def orderEffects (dto : PixOrderCallback) : List Act :=
  if dto.status = "CONFIRMED" ∧ dto.type = "DEPOSIT" then [.mint, .approve]
  else if dto.status = "CONFIRMED" ∧ dto.type = "WITHDRAWAL" ∨ dto.status = "FAILED" ∨ dto.status = "EXPIRED" then
    [.updateStatus]
  else []

/-- A call that has not brought the effect of its callback about. -/
def PixCall.owes : PixCall → Bool
  | .loadTransaction _ | .updatePixColumns .. | .failDeposit .. | .mint .. | .approve .. | .auditMintFailed ..
  | .updateStatus .. | .findCollection _ | .markPaid .. | .findReceivable .. | .auditPaid .. | .findSettled ..
  | .settleOnChain .. | .markSettled .. => true
  | .recordEvent _ | .auditConfirmed .. | .auditStatus .. | .createSettlement .. | .recordTxHash .. | .burn ..
  | .createTransaction _ | .auditCreated .. | .orderWithdrawal .. | .setPixOrder .. => false

namespace PixState
variable {σ : Type} (s : PixState σ)

def Effected : Callback → Prop
  | .order dto => ∀ act ∈ orderEffects dto, (dto.eventId, act) ∈ s.journal
  | .collection dto => dto.status = "PAID" → s.InvoiceSettled dto.receivableId

def FailureAudited (callback : Callback) : Prop := (callback.eventId, Act.auditMintFailed) ∈ s.journal

def Resolved (callback : Callback) : Prop := s.Effected callback ∨ s.FailureAudited callback

/-- Every callback that was answered with a 2xx has had its effect, or its failure is in the audit log. -/
def AcknowledgedResolved : Prop := ∀ callback ∈ s.acknowledged, s.Resolved callback

def Owes (call : PixCall) : Prop := call.owes = true ∧ ∃ callback ∈ call.callback?, ¬s.Resolved callback

end PixState

section Condition
variable {σ : Type} (env : PixEnv σ)

/-- The reply lets a call go on towards the effect of its callback: no statement but the mint and what follows it throws,
    the transaction, the wallet and the receivable are there, and the settlement is simulated and confirmed. -/
def Succeeds (s : PixState σ) : PixReply → PixCall → Prop
  | .ok _, .loadTransaction dto => (s.findTransaction dto.externalId).isSome = true
  | .ok _, .updatePixColumns t dto =>
    dto.status = "CONFIRMED" ∧ dto.type = "DEPOSIT" → (walletOf env.users t.userId).isSome = true
  | .ok _, .failDeposit .. => False
  | .ok _, .findSettled dto _ =>
    ∃ r ∈ s.findReceivable dto.receivableId, (settleInvoiceInPool env r.id r.value).toOption.isSome = true
  | .ok _, _ => True
  | .threw .., .mint .. | .threw .., .approve .. => True
  | .threw executed _, .auditMintFailed .. | .threw executed _, .updateStatus .. | .threw executed _, .markSettled .. =>
    executed.isSome = true
  | .threw .., _ => False
  | .submitted fate time _ _, .settleOnChain _ _ _ calls =>
    fate = .confirmed ∧ (env.execute time calls s.chain).toOption.isSome = true
  | .submitted .., _ => True

/-- No call is still to bring about the effect of the callback. -/
def NoneOwes (c : Config (PixState σ) PixCall) (callback : Callback) : Prop :=
  ∀ call ∈ c.calls, call.callback? = some callback → ¬c.shared.Owes call

def Answered (c : Config (PixState σ) PixCall) : PixCall → PixReply → Prop
  | .recordEvent callback, .ok _ => c.shared.recorded callback.eventId = true → NoneOwes c callback
  | .recordEvent callback, .threw (some _) _ =>
    c.shared.recorded callback.eventId = true ∨ c.shared.Resolved callback
  | .recordEvent _, _ => True
  | call, reply => c.shared.Owes call → Succeeds env c.shared reply call

/-- A delivery finds the row of its event only when no call still owes the effect, and a call that owes it neither
    crashes nor fails. -/
def Attended (c : Config (PixState σ) PixCall) : Op PixRequest PixReply → Prop
  | .start (.callback callback) => c.shared.recorded callback.eventId = true → NoneOwes c callback
  | .start _ => True
  | .resume i reply => ∀ call ∈ c.calls[i]?, Answered env c call reply
  | .crash i => ∀ call ∈ c.calls[i]?, ¬c.shared.Owes call

end Condition

section Resolved
variable {σ : Type} {env : PixEnv σ} {s s' : PixState σ} {call next : PixCall} {reply : PixReply} {callback : Callback}

theorem PixState.Resolved.grows (h : s.Resolved callback) (hgrows : s.Grows s') : s'.Resolved callback := by
  rcases h with h | h
  · refine .inl ?_
    cases callback with
    | order dto => exact fun act hact => hgrows.journal (h act hact)
    | collection dto => exact fun hpaid => hgrows.invoiceSettled (h hpaid)
  · exact .inr (hgrows.journal h)

theorem resolved_of_orderEffects {dto : PixOrderCallback} {act : Act} (heffects : orderEffects dto = [act])
    (h : (dto.eventId, act) ∈ s.journal) : s.Resolved (.order dto) := by
  refine .inl fun a ha => ?_
  rw [heffects, List.mem_singleton] at ha
  exact ha ▸ h

theorem resolved_of_minted {dto : PixOrderCallback} (heffects : orderEffects dto = [.mint, .approve])
    (hmint : (dto.eventId, Act.mint) ∈ s.journal) (happrove : (dto.eventId, Act.approve) ∈ s.journal) :
    s.Resolved (.order dto) := by
  refine .inl fun a ha => ?_
  rw [heffects, List.mem_cons, List.mem_singleton] at ha
  rcases ha with rfl | rfl
  · exact hmint
  · exact happrove

/-- The row of the call's event is inserted, and this is what it has found and done since. -/
def PixCall.Ready (s : PixState σ) : PixCall → Prop
  | .recordEvent _ => False
  | .mint _ dto _ => orderEffects dto = [.mint, .approve]
  | .approve _ dto _ => orderEffects dto = [.mint, .approve] ∧ (dto.eventId, Act.mint) ∈ s.journal
  | .updateStatus _ dto _ => orderEffects dto = [.updateStatus]
  | .settleOnChain dto _ receivable _ | .markSettled dto _ receivable _ =>
    receivable.id = dto.receivableId ∧ ∃ r, s.findReceivable dto.receivableId = some r
  | .auditConfirmed _ dto _ | .auditStatus _ dto _ => s.Resolved (.order dto)
  | .createSettlement dto _ _ _ | .recordTxHash dto _ _ => s.Resolved (.collection dto)
  | _ => True

theorem PixCall.Ready.grows (h : call.Ready s) (hgrows : s.Grows s') : call.Ready s' := by
  cases call with
  | approve => exact ⟨h.1, hgrows.journal h.2⟩
  | settleOnChain | markSettled =>
    obtain ⟨hid, r, hr⟩ := h
    obtain ⟨r', hr', -⟩ := hgrows.receivable _ r hr
    exact ⟨hid, r', hr'⟩
  | auditConfirmed | auditStatus | createSettlement | recordTxHash => exact PixState.Resolved.grows h hgrows
  | _ => exact h

theorem PixCall.Ready.ne_recordEvent (h : call.Ready s) : ∀ callback, call ≠ .recordEvent callback := by
  rintro callback rfl
  exact h

theorem PixCall.Ready.resolved (h : call.Ready s) (hcallback : call.callback? = some callback)
    (howes : call.owes = false) : s.Resolved callback := by
  cases call with
  | recordEvent => exact h.elim
  | auditConfirmed | auditStatus | createSettlement | recordTxHash =>
    cases hcallback
    exact h
  | burn | createTransaction | auditCreated | orderWithdrawal | setPixOrder => cases hcallback
  | _ => cases howes

/-! ### Each step leaves its call ready -/

theorem dispatchOrder_ready {t : PixTransaction} {dto : PixOrderCallback}
    (h : dispatchOrder env t dto = .next next) : next.Ready s' := by
  unfold dispatchOrder at h
  split at h
  · next hdeposit =>
    unfold confirmDeposit at h
    split at h
    · cases h
      trivial
    · split at h <;> cases h
      · trivial
      · exact if_pos hdeposit
  · next hdeposit =>
    have hstatus : ∀ hs : dto.status = "CONFIRMED" ∧ dto.type = "WITHDRAWAL" ∨ dto.status = "FAILED" ∨
        dto.status = "EXPIRED", orderEffects dto = [.updateStatus] := fun hs =>
      (if_neg hdeposit).trans (if_pos hs)
    split at h
    · next hwithdrawal =>
      cases h
      exact hstatus (.inl hwithdrawal)
    · split at h
      · next hfailed =>
        cases h
        exact hstatus (.inr (.inl hfailed))
      · split at h
        · next hexpired =>
          cases h
          exact hstatus (.inr (.inr hexpired))
        · cases h

theorem settleInvoice_ready {now : String} {dto : PixCollectionCallback} {collection : Option ReceivableCollection}
    (h : settleInvoice env now s dto collection = .next next) : next.Ready s := by
  unfold settleInvoice at h
  cases hfind : s.findReceivable dto.receivableId with
  | none =>
    rw [hfind] at h
    cases h
  | some receivable =>
    rw [hfind] at h
    dsimp only at h
    split at h
    · next hsettled =>
      obtain ⟨_, _, rfl⟩ := afterSettlement_follows h
      exact .inl fun _ => ⟨receivable, hfind, hsettled⟩
    · split at h <;> cases h <;> exact ⟨id_of_findReceivable hfind, receivable, hfind⟩

theorem markSettled_settles {dto : PixCollectionCallback} {collection : Option ReceivableCollection}
    {receivable : ReceivableRow} {txHash value : String}
    (h : (PixCall.markSettled dto collection receivable txHash).Ready s) :
    ((PixCall.markSettled dto collection receivable txHash).execute env value s).Resolved (.collection dto) := by
  obtain ⟨hid, r, hr⟩ := h
  have hkey : r.id = receivable.id := (id_of_findReceivable hr).trans hid.symm
  refine .inl fun _ => ⟨{ r with status := .other "settled", paymentTxHash := some txHash }, ?_, rfl⟩
  rw [findReceivable_markSettled, hr]
  exact congrArg some (if_pos hkey)

theorem proceed_ready {value : String} (hready : call.Ready s) (h : call.proceed env value s = .next next) :
    next.Ready (call.execute env value s) := by
  cases call with
  | recordEvent => exact hready.elim
  | updatePixColumns t dto => exact dispatchOrder_ready h
  | findSettled dto collection => exact settleInvoice_ready h
  | approve t dto txHash =>
    cases h
    exact resolved_of_minted hready.1 (List.mem_append_left _ hready.2) List.mem_concat_self
  | updateStatus t dto outcome =>
    cases h
    exact resolved_of_orderEffects hready List.mem_concat_self
  | markSettled dto collection receivable txHash =>
    cases h
    exact markSettled_settles hready
  | createSettlement dto collection receivable txHash =>
    obtain ⟨_, _, rfl⟩ := afterSettlement_follows h
    exact PixState.Resolved.grows hready (execute_grows value)
  | loadTransaction | findCollection | findReceivable | createTransaction =>
    simp only [PixCall.proceed] at h
    split at h <;> cases h <;> trivial
  | markPaid | auditPaid | auditCreated | orderWithdrawal =>
    cases h
    trivial
  | failDeposit | auditConfirmed | auditMintFailed | auditStatus | recordTxHash | setPixOrder | mint | settleOnChain
  | burn => cases h

theorem rescue_ready {message : String} (h : call.rescue message = .next next) : next.Ready s := by
  cases call <;> cases h <;> trivial

theorem confirmed_ready {txHash : String} {chain : σ} (hready : call.Ready s)
    (h : (call.confirmed env txHash (call.landed s chain)).2 = .next next) :
    next.Ready (call.confirmed env txHash (call.landed s chain)).1 := by
  cases call with
  | mint t dto effect =>
    cases h
    exact ⟨hready, List.mem_concat_self⟩
  | settleOnChain dto collection receivable calls =>
    cases h
    have hnext : (PixCall.markSettled dto collection receivable txHash).Ready s := hready
    exact hnext.grows ((landed_grows chain).trans (confirmed_grows txHash))
  | burn userId dto tx =>
    simp only [PixCall.confirmed] at h
    split at h <;> cases h
    trivial
  | _ => cases h

theorem resume_ready (hready : call.Ready s) (reply : PixReply) :
    ∀ next ∈ (resumePixCall env call reply s).2, next.Ready (resumePixCall env call reply s).1 :=
  resume_establishes (P := fun s call => call.Ready s) hready (fun _ _ h => proceed_ready hready h)
    (fun _ _ _ h => rescue_ready h) (fun _ _ _ h => confirmed_ready hready h) reply

/-! ### A call that succeeds -/

theorem PixState.Resolved.goOn {flow : Flow} (h : s.Resolved callback) : (call.goOn s flow).1.Resolved callback :=
  h.grows (goOn_relates PixState.Grows.refl .acknowledge flow)

theorem dispatchOrder_finished {t : PixTransaction} {dto : PixOrderCallback}
    (h : ∀ next, dispatchOrder env t dto ≠ .next next) : orderEffects dto = [] := by
  unfold dispatchOrder at h
  unfold orderEffects
  split at h
  · unfold confirmDeposit at h
    split at h
    · exact absurd rfl (h _)
    · split at h <;> exact absurd rfl (h _)
  · next hdeposit =>
    rw [if_neg hdeposit, if_neg]
    rintro (hs | hs | hs) <;> simp only [hs] at h <;> exact absurd rfl (h _)

theorem proceed_resolves {value : String} (hcallback : call.callback? = some callback) (howes : call.owes = true)
    (hsubmits : call.submits env = none) (h : Succeeds env s (.ok value) call) :
    (∃ next, call.proceed env value s = .next next) ∨ (call.execute env value s).Resolved callback := by
  cases call with
  | loadTransaction dto =>
    obtain ⟨t, ht⟩ := Option.isSome_iff_exists.mp h
    exact .inl ⟨.updatePixColumns t dto, by simp only [PixCall.proceed, ht]⟩
  | updatePixColumns t dto =>
    by_cases hnext : ∃ next, dispatchOrder env t dto = .next next
    · exact .inl hnext
    · cases hcallback
      refine .inr (.inl fun act hact => ?_)
      rw [dispatchOrder_finished (not_exists.mp hnext)] at hact
      cases hact
  | failDeposit => exact absurd h id
  | auditMintFailed t dto error =>
    cases hcallback
    exact .inr (.inr List.mem_concat_self)
  | findCollection dto =>
    left
    simp only [PixCall.proceed]
    split <;> exact ⟨_, rfl⟩
  | findReceivable dto collection =>
    left
    simp only [PixCall.proceed]
    split <;> exact ⟨_, rfl⟩
  | findSettled dto collection =>
    obtain ⟨receivable, hfind, hpool⟩ := h
    obtain ⟨calls, hsettle⟩ := toOption_isSome.mp hpool
    simp only [PixCall.proceed, settleInvoice, Option.mem_def.mp hfind, hsettle]
    split
    · next hsettled =>
      cases hcallback
      exact .inr (.inl fun _ => ⟨receivable, hfind, hsettled⟩)
    · left
      cases calls <;> exact ⟨_, rfl⟩
  | approve | updateStatus | markPaid | auditPaid | markSettled => exact .inl ⟨_, rfl⟩
  | mint | settleOnChain => cases hsubmits
  | _ => cases howes

theorem rescue_resolves {executed : Option String} {message : String} (hcallback : call.callback? = some callback)
    (hready : call.Ready s) (h : Succeeds env s (.threw executed message) call) :
    (∃ next, call.rescue message = .next next) ∨ (executed.elim s (call.execute env · s)).Resolved callback := by
  cases call with
  | mint | approve => exact .inl ⟨_, rfl⟩
  | auditMintFailed t dto error =>
    obtain ⟨value, rfl⟩ := Option.isSome_iff_exists.mp h
    cases hcallback
    exact .inr (.inr List.mem_concat_self)
  | updateStatus t dto outcome =>
    obtain ⟨value, rfl⟩ := Option.isSome_iff_exists.mp h
    cases hcallback
    exact .inr (resolved_of_orderEffects hready List.mem_concat_self)
  | markSettled dto collection receivable txHash =>
    obtain ⟨value, rfl⟩ := Option.isSome_iff_exists.mp h
    cases hcallback
    rw [Option.elim_some]
    exact .inr (markSettled_settles hready)
  | _ => exact absurd h id

theorem not_landed_resolves {fate : Fate} {time : Nat} {txHash message : String} {calls : LedgerCalls}
    (howes : call.owes = true) (hsubmits : call.submits env = some calls)
    (h : Succeeds env s (.submitted fate time txHash message) call)
    (hland : ∀ chain, land (env.execute time calls s.chain) fate ≠ .inTime chain) :
    ∃ next, call.rescue message = .next next := by
  cases call with
  | mint => exact ⟨_, rfl⟩
  | settleOnChain dto collection receivable calls' =>
    cases hsubmits
    obtain ⟨rfl, hok⟩ := h
    obtain ⟨chain, hchain⟩ := toOption_isSome.mp hok
    rw [hchain] at hland
    exact absurd rfl (hland chain)
  | burn => cases howes
  | _ => cases hsubmits

/-- A call that owes its effect and succeeds goes on, or has it resolved. -/
theorem resume_resolves (hcallback : call.callback? = some callback) (howes : call.owes = true)
    (hready : call.Ready s) (h : Succeeds env s reply call) :
    (∃ next, (resumePixCall env call reply s).2 = some next) ∨ (resumePixCall env call reply s).1.Resolved callback := by
  have hgoOn : ∀ {s' : PixState σ} {flow : Flow}, (∃ next, flow = .next next) ∨ s'.Resolved callback →
      (∃ next, (call.goOn s' flow).2 = some next) ∨ (call.goOn s' flow).1.Resolved callback := by
    rintro s' flow (⟨next, rfl⟩ | hresolved)
    · exact .inl ⟨next, rfl⟩
    · exact .inr hresolved.goOn
  cases resumePixCall_stepped env call reply s with
  | waits _ hr =>
    rw [hr]
    exact .inl ⟨call, rfl⟩
  | ok value hsubmits hr =>
    rw [hr]
    exact hgoOn (proceed_resolves hcallback howes hsubmits h)
  | threw executed message hr =>
    rw [hr]
    exact hgoOn (rescue_resolves hcallback hready h)
  | never fate time txHash message calls hsubmits hfate hr =>
    rw [hr]
    exact hgoOn (.inl (not_landed_resolves howes hsubmits h fun chain hland => by rw [hfate] at hland; cases hland))
  | late fate time txHash message calls chain hsubmits hfate hr =>
    rw [hr]
    exact hgoOn (.inl (not_landed_resolves howes hsubmits h fun chain hland => by rw [hfate] at hland; cases hland))
  | confirmed fate time txHash message calls chain hsubmits hfate hr =>
    rw [hr]
    refine hgoOn (.inl ?_)
    cases call with
    | mint | settleOnChain => exact ⟨_, rfl⟩
    | burn => cases howes
    | _ => cases hsubmits

/-- A call past the insertion of its event's row whose reply meets the condition leaves its callback resolved, or goes
    on to bring its effect about. -/
theorem resume_carried (hcallback : call.callback? = some callback) (hready : call.Ready s)
    (h : s.Owes call → Succeeds env s reply call) :
    (resumePixCall env call reply s).1.Resolved callback ∨
      ∃ next ∈ (resumePixCall env call reply s).2, next.callback? = some callback ∧ next.owes = true := by
  by_cases hresolved : s.Resolved callback
  · exact .inl (hresolved.grows (resume_grows env call reply s))
  cases howes : call.owes with
  | false => exact absurd (hready.resolved hcallback howes) hresolved
  | true =>
    rcases resume_resolves hcallback howes hready (h ⟨howes, callback, hcallback, hresolved⟩) with ⟨next, hnext⟩ | hdone
    · have hfollows : next.callback? = some callback := (next_callback hnext).trans hcallback
      cases hnextOwes : next.owes with
      | true => exact .inr ⟨next, hnext, hfollows, hnextOwes⟩
      | false => exact .inl ((resume_ready hready reply next hnext).resolved hfollows hnextOwes)
    · exact .inl hdone

end Resolved
/-! ### Runs -/

section Runs
variable {σ : Type} {env : PixEnv σ} {outbox : String → Callback} {s : PixState σ}
  {c c' : Config (PixState σ) PixCall} {op : Op PixRequest PixReply} {call : PixCall} {callback : Callback}

structure Underway (outbox : String → Callback) (s : PixState σ) (call : PixCall) : Prop where
  sent : ∀ callback, call.callback? = some callback → callback = outbox callback.eventId
  ready : (∃ callback, call = .recordEvent callback) ∨ call.Ready s

/-- The effect of a callback is due once its event's row is there. -/
def EffectsCarried (outbox : String → Callback) (c : Config (PixState σ) PixCall) : Prop :=
  Discharged (fun eventId s => s.recorded eventId = true) (fun eventId s => s.Resolved (outbox eventId))
    (fun eventId call => call.callback? = some (outbox eventId) ∧ call.owes = true) c

structure Tended (outbox : String → Callback) (c : Config (PixState σ) PixCall) : Prop where
  underway : Holds (fun _ => True) (Underway outbox) c
  carried : EffectsCarried outbox c
  acknowledged : c.shared.AcknowledgedResolved

theorem proceed_recordEvent_ready {value : String} {next : PixCall}
    (h : (PixCall.recordEvent callback).proceed env value s = .next next) (s' : PixState σ) :
    next.Ready s' ∧ next.owes = true := by
  simp only [PixCall.proceed] at h
  split at h
  · cases h
  · cases callback with
    | order dto =>
      cases h
      exact ⟨trivial, rfl⟩
    | collection dto =>
      dsimp only at h
      split at h <;> cases h
      exact ⟨trivial, rfl⟩

theorem underway_outline (env : PixEnv σ) (outbox : String → Callback) :
    Outline (pixApi env) (fun _ request => FromOutbox outbox (.start request)) (fun _ _ _ => True) (fun _ => True)
      (Underway outbox) PixState.Grows where
  start request s _ hsent := by
    refine ⟨trivial, start_grows env request s, fun call hcall => ?_⟩
    rcases start_next hcall with ⟨callback, rfl, rfl⟩ | ⟨userId, dto, tx, rfl, -, rfl⟩
    · refine ⟨fun callback' h => ?_, .inl ⟨callback, rfl⟩⟩
      cases h
      exact hsent
    · exact ⟨fun _ h => (by cases h), .inr trivial⟩
  resume call reply s _ hunderway _ := by
    refine ⟨trivial, resume_grows env call reply s, fun next hnext => ?_⟩
    refine ⟨fun callback h => hunderway.sent callback (next_callback hnext ▸ h), ?_⟩
    rcases hunderway.ready with ⟨callback, rfl⟩ | hready
    · change next ∈ (resumePixCall env (.recordEvent callback) reply s).2 at hnext
      cases resume_recorded env callback reply s with
      | waits _ hr =>
        rw [hr] at hnext
        cases hnext
        exact .inl ⟨callback, rfl⟩
      | next _ _ _ _ hflow hr =>
        rw [hr] at hnext
        cases hnext
        exact .inr (proceed_recordEvent_ready hflow _).1
      | duplicate _ _ hr | raised _ _ hr | lost _ _ _ hr | finished _ _ _ hr =>
        rw [hr] at hnext
        cases hnext
    · exact .inr (resume_ready hready reply next hnext)
  stable s s' call hgrows hunderway := ⟨hunderway.sent, hunderway.ready.imp_right (·.grows hgrows)⟩

/-- Nothing is left to do for a collection that is not paid. -/
theorem resolved_of_finished {value : String} {s' : PixState σ} (hnew : s.recorded callback.eventId = false)
    (h : (PixCall.recordEvent callback).proceed env value s = .finished) : s'.Resolved callback := by
  simp only [PixCall.proceed, hnew, Bool.false_eq_true, ↓reduceIte] at h
  cases callback with
  | order dto => cases h
  | collection dto =>
    dsimp only at h
    split at h
    · cases h
    · next hpaid => exact .inl fun h => absurd h hpaid

theorem resolved_of_recorded (hcarried : EffectsCarried outbox c) (hnone : NoneOwes c callback)
    (hsent : callback = outbox callback.eventId) (hrecorded : c.shared.recorded callback.eventId = true) :
    c.shared.Resolved callback := by
  rcases hcarried callback.eventId hrecorded with hresolved | ⟨call, hcall, hcallback, howes⟩
  · exact hsent ▸ hresolved
  · rw [← hsent] at hcallback
    by_contra hresolved
    exact hnone call hcall hcallback ⟨howes, callback, hcallback, hresolved⟩

/-- The insertion of an event's row hands its effect on to the call, or the effect is resolved. -/
theorem recorded_handsOn {reply : PixReply} (hsent : callback = outbox callback.eventId)
    (hanswered : Answered env c (.recordEvent callback) reply) (eventId : String) :
    HandsOn (fun eventId (s : PixState σ) => s.recorded eventId = true) (fun eventId s => s.Resolved (outbox eventId))
      (fun eventId call => call.callback? = some (outbox eventId) ∧ call.owes = true) c.shared
      (resumePixCall env (.recordEvent callback) reply c.shared) eventId where
  keeps hresolved := hresolved.grows (resume_grows env _ reply c.shared)
  brings hrecorded := by
    cases resume_recorded env callback reply c.shared with
    | waits _ hr | raised _ _ hr | duplicate _ _ hr =>
      rw [hr] at hrecorded
      exact .inl hrecorded
    | lost value message hnew hr =>
      rw [hr] at hrecorded ⊢
      refine (recorded_of_record hrecorded).imp_right fun he => .inl ?_
      have hresolved : c.shared.Resolved callback := hanswered.resolve_left (Bool.eq_false_iff.mp hnew)
      rw [← he, ← hsent]
      exact hresolved.grows (.record c.shared callback)
    | next value hnew next hcallback hflow hr =>
      rw [hr] at hrecorded ⊢
      refine (recorded_of_record hrecorded).imp_right fun he => .inr ⟨next, rfl, ?_⟩
      rw [← he, ← hsent]
      exact ⟨hcallback, (proceed_recordEvent_ready hflow c.shared).2⟩
    | finished value hnew hflow hr =>
      rw [hr] at hrecorded ⊢
      refine (recorded_of_record hrecorded).imp_right fun he => .inl ?_
      rw [← he, ← hsent]
      exact resolved_of_finished hnew hflow

theorem Tended.start {request : PixRequest} (hc : Tended outbox c) (hsent : FromOutbox outbox (.start request))
    (hattended : Attended env c (.start request)) :
    EffectsCarried outbox (.after c.calls (startPixCall env request c.shared)) ∧
      (startPixCall env request c.shared).1.AcknowledgedResolved := by
  have hgrows := start_grows env request c.shared
  constructor
  · refine hc.carried.start fun eventId => ⟨fun h => h.grows hgrows, fun h => .inl ?_⟩
    rwa [recorded_of_webhookEvents (start_kept env request c.shared).2] at h
  · intro callback h
    refine PixState.Resolved.grows ?_ hgrows
    rcases start_acknowledged h with hold | ⟨rfl, hrecorded⟩
    · exact hc.acknowledged callback hold
    · exact resolved_of_recorded hc.carried (hattended hrecorded) hsent hrecorded

/-- An answer to the insertion of an event's row is given where the row was there, or nothing is left to do. -/
theorem Tended.record {reply : PixReply} {rest : List PixCall} (hc : Tended outbox c)
    (hcalls : c.calls.Perm (.recordEvent callback :: rest)) (hsent : callback = outbox callback.eventId)
    (hanswered : Answered env c (.recordEvent callback) reply) :
    EffectsCarried outbox (.after rest (resumePixCall env (.recordEvent callback) reply c.shared)) ∧
      (resumePixCall env (.recordEvent callback) reply c.shared).1.AcknowledgedResolved := by
  have hgrows := resume_grows env (.recordEvent callback) reply c.shared
  refine ⟨hc.carried.resume hcalls (recorded_handsOn hsent hanswered) fun _ _ h => absurd h.2 Bool.false_ne_true,
    fun callback' h => ?_⟩
  rcases resume_acknowledged h with hold | ⟨hcallback, -⟩
  · exact (hc.acknowledged callback' hold).grows hgrows
  · cases hcallback
    cases resume_recorded env callback reply c.shared with
    | duplicate value hrecorded hr =>
      exact (resolved_of_recorded hc.carried (hanswered hrecorded) hsent hrecorded).grows hgrows
    | finished value hnew hflow hr => exact resolved_of_finished hnew hflow
    | waits _ hr | raised _ _ hr | lost _ _ _ hr | next _ _ _ _ _ hr =>
      rw [hr] at h
      exact (hc.acknowledged callback h).grows hgrows

theorem Tended.resume {reply : PixReply} {rest : List PixCall} (hc : Tended outbox c)
    (hcalls : c.calls.Perm (call :: rest)) (hready : call.Ready c.shared)
    (h : c.shared.Owes call → Succeeds env c.shared reply call) :
    EffectsCarried outbox (.after rest (resumePixCall env call reply c.shared)) ∧
      (resumePixCall env call reply c.shared).1.AcknowledgedResolved := by
  have hgrows := resume_grows env call reply c.shared
  constructor
  · refine hc.carried.resume hcalls (fun eventId => ⟨fun h => h.grows hgrows, fun h => .inl ?_⟩) fun eventId _ h' => ?_
    · rwa [recorded_of_webhookEvents (resume_webhookEvents hready.ne_recordEvent reply c.shared)] at h
    · exact resume_carried h'.1 hready h
  · intro callback hmem
    rcases resume_acknowledged hmem with hold | ⟨hcallback, hover⟩
    · exact (hc.acknowledged callback hold).grows hgrows
    · refine (resume_carried hcallback hready h).resolve_right ?_
      rintro ⟨next, hnext, -⟩
      rw [hover] at hnext
      cases hnext

theorem answered_succeeds {reply : PixReply} (hready : call.Ready c.shared) (hanswered : Answered env c call reply) :
    c.shared.Owes call → Succeeds env c.shared reply call := by
  cases call with
  | recordEvent => exact hready.elim
  | _ => exact hanswered

theorem Tended.step (hc : Tended outbox c) (hsent : FromOutbox outbox op) (hattended : Attended env c op)
    (hstep : (pixApi env).step c op = .ok c') : Tended outbox c' := by
  have hunderway := (underway_outline env outbox).step hc.underway hsent.allows hstep
  cases step_moved hstep with
  | start request hop hc' =>
    subst hop hc'
    obtain ⟨hcarried, hacknowledged⟩ := hc.start hsent hattended
    exact ⟨hunderway, hcarried, hacknowledged⟩
  | resume i reply call rest hop hcall hcalls hc' =>
    subst hop hc'
    have hthis := hc.underway.2 call (hcalls.mem_iff.mpr List.mem_cons_self)
    have hanswered := hattended call hcall
    rcases hthis.ready with ⟨callback, rfl⟩ | hready
    · obtain ⟨hcarried, hacknowledged⟩ := hc.record hcalls (hthis.sent callback rfl) hanswered
      exact ⟨hunderway, hcarried, hacknowledged⟩
    · obtain ⟨hcarried, hacknowledged⟩ := hc.resume hcalls hready (answered_succeeds hready hanswered)
      exact ⟨hunderway, hcarried, hacknowledged⟩
  | crash i call rest hop hcalls hc' =>
    subst hop
    obtain ⟨call, rest, hcall, hcalls, rfl⟩ := crash_lost hstep
    refine ⟨hunderway, hc.carried.crash hcalls fun eventId _ h => ?_, hc.acknowledged⟩
    by_contra hresolved
    exact hattended call hcall ⟨h.2, outbox eventId, h.1, hresolved⟩

theorem Tended.nothing_recorded (hevents : s.webhookEvents = []) (hacknowledged : s.acknowledged = []) :
    Tended outbox ⟨s, []⟩ where
  underway := ⟨trivial, List.forall_mem_nil _⟩
  carried eventId h := by
    change s.recorded eventId = true at h
    rw [PixState.recorded, hevents] at h
    cases h
  acknowledged callback h := by
    change callback ∈ s.acknowledged at h
    rw [hacknowledged] at h
    cases h

end Runs

/-- In every run whose deliveries come from the outbox and whose calls are attended to, what is answered with a 2xx has
    had its effect, or its failure is in the audit log. -/
theorem acknowledged_effected {σ : Type} (env : PixEnv σ) (outbox : String → Callback) (s : PixState σ)
    (hevents : s.webhookEvents = []) (hacknowledged : s.acknowledged = []) (ops : List (Op PixRequest PixReply))
    (hsent : ∀ op ∈ ops, FromOutbox outbox op) (hattended : Along (pixApi env).step (Attended env) ⟨s, []⟩ ops) :
    Throughout (pixApi env).step (fun c => c.shared.AcknowledgedResolved) ⟨s, []⟩ ops := by
  have hboth : Along (pixApi env).step (fun c op => FromOutbox outbox op ∧ Attended env c op) ⟨s, []⟩ ops :=
    (Along.of_forall hsent).and hattended
  exact (throughout_of_along (fun _ _ _ hc h hstep => hc.step h.1 h.2 hstep)
    (Tended.nothing_recorded hevents hacknowledged) hboth).mono fun _ hc => hc.acknowledged

section Examples

instance {σ : Type} (s : PixState σ) (receivableId : String) : Decidable (s.InvoiceSettled receivableId) :=
  inferInstanceAs (Decidable (∃ r ∈ s.findReceivable receivableId, r.status = .other "settled"))

instance {σ : Type} (s : PixState σ) : (callback : Callback) → Decidable (s.Effected callback)
  | .order dto => inferInstanceAs (Decidable (∀ act ∈ orderEffects dto, (dto.eventId, act) ∈ s.journal))
  | .collection dto => inferInstanceAs (Decidable (dto.status = "PAID" → s.InvoiceSettled dto.receivableId))

instance {σ : Type} (s : PixState σ) (callback : Callback) : Decidable (s.Resolved callback) :=
  inferInstanceAs (Decidable (s.Effected callback ∨ (callback.eventId, Act.auditMintFailed) ∈ s.journal))

instance {σ : Type} (s : PixState σ) : Decidable s.AcknowledgedResolved :=
  inferInstanceAs (Decidable (∀ callback ∈ s.acknowledged, s.Resolved callback))

instance {σ : Type} (s : PixState σ) (call : PixCall) : Decidable (s.Owes call) :=
  inferInstanceAs (Decidable (call.owes = true ∧ ∃ callback ∈ call.callback?, ¬s.Resolved callback))

instance {σ : Type} (c : Config (PixState σ) PixCall) (callback : Callback) : Decidable (NoneOwes c callback) :=
  inferInstanceAs (Decidable (∀ call ∈ c.calls, call.callback? = some callback → ¬c.shared.Owes call))

instance {σ : Type} (env : PixEnv σ) (s : PixState σ) (reply : PixReply) (call : PixCall) :
    Decidable (Succeeds env s reply call) := by
  unfold Succeeds
  split <;> infer_instance

instance {σ : Type} (env : PixEnv σ) (c : Config (PixState σ) PixCall) (call : PixCall) (reply : PixReply) :
    Decidable (Answered env c call reply) := by
  unfold Answered
  split <;> infer_instance

instance {σ : Type} (env : PixEnv σ) (c : Config (PixState σ) PixCall) :
    (op : Op PixRequest PixReply) → Decidable (Attended env c op)
  | .start (.callback callback) =>
    inferInstanceAs (Decidable (c.shared.recorded callback.eventId = true → NoneOwes c callback))
  | .start (.submitWithdrawal ..) | .start (.moveOrder ..) => instDecidableTrue
  | .resume i reply => inferInstanceAs (Decidable (∀ call ∈ c.calls[i]?, Answered env c call reply))
  | .crash i => inferInstanceAs (Decidable (∀ call ∈ c.calls[i]?, ¬c.shared.Owes call))

def paidTransaction : PixTransaction where
  id := "deposit"
  userId := "investor"
  type := .deposit
  amount := 100
  status := .paymentSubmitted

def depositState : PixState Unit := { chain := (), transactions := [paidTransaction] }

def confirmedDeposit : Callback :=
  .order
    { eventId := "event", externalId := "deposit", type := "DEPOSIT", status := "CONFIRMED", amount := 100,
      pixOrderId := "order", identifier := "identifier", paymentId := none, transactionId := none, endToEndId := none,
      confirmedAt := none, failureReason := none }

/-- The approval fails after the mint, its failure is recorded, and the callback is sent again. -/
theorem acknowledged_effected_sent_again :
    Throughout (pixApi testPixEnv).step (fun c => c.shared.AcknowledgedResolved) ⟨depositState, []⟩
      [.start (.callback confirmedDeposit), .resume 0 (.ok ""), .resume 0 (.ok ""), .resume 0 (.ok ""),
        .resume 0 (.submitted .confirmed 0 "mint" ""), .resume 0 (.threw none "timeout"), .resume 0 (.ok ""),
        .start (.callback confirmedDeposit)] :=
  acknowledged_effected testPixEnv (fun _ => confirmedDeposit) depositState rfl rfl _ (by decide +kernel)
    (by decide +kernel)

/-- The Pix columns are not written, or the call is lost, and the next delivery is answered all the same. -/
theorem retry_swallowed :
    ¬Throughout (pixApi testPixEnv).step (fun c => c.shared.AcknowledgedResolved) ⟨depositState, []⟩
        [.start (.callback confirmedDeposit), .resume 0 (.ok ""), .resume 0 (.ok ""), .resume 0 (.threw none "timeout"),
          .start (.callback confirmedDeposit)] ∧
      ¬Throughout (pixApi testPixEnv).step (fun c => c.shared.AcknowledgedResolved) ⟨depositState, []⟩
        [.start (.callback confirmedDeposit), .resume 0 (.ok ""), .crash 0, .start (.callback confirmedDeposit)] :=
  ⟨fun h => absurd h.last (by decide +kernel), fun h => absurd h.last (by decide +kernel)⟩

end Examples
end CredBridge.Api
