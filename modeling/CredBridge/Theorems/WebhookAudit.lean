import CredBridge.PixService.Service

/-! # The log of the webhooks

The row of a webhook is what a second delivery of it is told by. Only a webhook of an order adds one: the event of a
collection is applied, and one of nothing is logged, without it. The log tells what was answered along the runs in which
no webhook but one of an order is answered with ok. The invariant: the rows have different event ids, and each answer
with ok has its row. -/

namespace CredBridge.PixService
open Concurrent Machine Result

def Service.eventRows (eventId : String) (s : Service) : Nat :=
  s.tables.db.pixEvents.countP fun event => decide (event.eventId = eventId)

/-- A webhook that was answered with ok has exactly one row. -/
def Audited (s : Service) : Prop := ∀ eventId, (eventId, WebhookStatus.ok) ∈ s.answered → s.eventRows eventId = 1

def ServiceCall.webhook? : ServiceCall → Option String
  | .order webhook _ | .commitCollection webhook _ => webhook
  | .cancelCollectionQr _ | .batch _ => none

/-- The event id of the webhook that makes a step. -/
def webhookOf (c : Config Service ServiceCall) : Op ServiceRequest ServiceAnswer → Option String
  | .start (.receiveCorpxWebhook _ webhook) => some webhook.eventId
  | .start _ => none
  | .resume i _ | .crash i => c.calls[i]?.bind ServiceCall.webhook?

/-- A webhook that was answered with ok changes nothing when it is delivered again. -/
def NoFurtherEffect (c c' : Config Service ServiceCall) (webhook : Option String) : Prop :=
  ∀ eventId ∈ webhook, (eventId, WebhookStatus.ok) ∈ c.shared.answered → c'.shared.tables = c.shared.tables

def AuditedOnce (env : ServiceEnv) (c : Config Service ServiceCall) (op : Op ServiceRequest ServiceAnswer) : Prop :=
  Audited (next (pixService env).step c op).shared ∧ NoFurtherEffect c (next (pixService env).step c op) (webhookOf c op)

/-- A webhook of no order is answered with ok: one of nothing is logged, or one of a collection is committed. -/
def answersWithoutOrder (s : Service) : ServiceCall → ServiceAnswer → Bool
  | .order _ (.findOrder _ event []), .update (.database true) =>
    match findCollectionForEvent s.tables event with
    | .ok none => true
    | .ok (some _) | .error _ => false
  | .commitCollection (some webhook) change, answer =>
    (committedCollection s (.commitCollection (some webhook) change) answer).isSome
  | _, _ => false

def FindsOrder (s : Service) (call : ServiceCall) (answer : ServiceAnswer) : Prop :=
  answersWithoutOrder s call answer = false

def Service.Keyed (s : Service) : Prop := Table.Keyed PixEvent.eventId s.tables.db.pixEvents

/-! ### Rows of events -/

section Rows
variable {env : ServiceEnv} {s s' : Service} {eventId : String}

theorem eventRows_eq_one (hkeyed : s.Keyed) :
    s.eventRows eventId = 1 ↔ eventId ∈ s.tables.db.pixEvents.map PixEvent.eventId := by
  have hcount : s.eventRows eventId = (s.tables.db.pixEvents.map PixEvent.eventId).count eventId := by
    unfold Service.eventRows List.count
    rw [List.countP_map]
    rfl
  rw [hcount]
  exact ⟨fun h => List.count_pos_iff.mp (h ▸ Nat.one_pos), fun h => List.count_eq_one_of_mem hkeyed h⟩

/-- The log only grows, by rows with new event ids. -/
structure Logs (s s' : Service) : Prop where
  keyed : s.Keyed → s'.Keyed
  rows : s.tables.db.pixEvents.map PixEvent.eventId ⊆ s'.tables.db.pixEvents.map PixEvent.eventId

theorem Logs.of_events (h : s'.tables.db.pixEvents = s.tables.db.pixEvents) : Logs s s' where
  keyed hkeyed := by
    unfold Service.Keyed
    rwa [h]
  rows := by rw [h]; exact List.Subset.refl _

theorem Logs.of_append {event : PixEvent} (hnew : Table.find PixEvent.eventId event.eventId s.tables.db.pixEvents = none)
    (h : s'.tables.db.pixEvents = s.tables.db.pixEvents ++ [event]) : Logs s s' where
  keyed hkeyed := by
    unfold Service.Keyed
    rw [h]
    exact Table.Keyed.append hkeyed (Table.find_eq_none.mp hnew)
  rows := by
    rw [h, List.map_append]
    exact List.subset_append_left _ _

theorem Logs.of_created {tables : Tables} (h : Created s.tables tables) : Logs s { s with tables } := by
  rcases h with ⟨_, event, hnew, rfl⟩ | ⟨_, -, -, rfl⟩ | rfl
  · exact .of_append hnew rfl
  · exact .of_events rfl
  · exact .of_events rfl

theorem Logs.of_commit {db : Db} {change : Change} (hcommit : s.tables.db.commit change = .ok db)
    (h : s'.tables.db = db) : Logs s s' ∧
      ∀ event ∈ change.event, event.eventId ∈ s'.tables.db.pixEvents.map PixEvent.eventId := by
  obtain ⟨_, -, hnew, -, rfl⟩ := Db.commit_inv hcommit
  cases hevent : change.event with
  | none => exact ⟨.of_events (by rw [h, hevent]; exact List.append_nil _), nofun⟩
  | some event =>
    refine ⟨.of_append (hnew event hevent) (by rw [h, hevent]; rfl), fun e he => ?_⟩
    cases he
    rw [h, hevent]
    exact List.mem_map_of_mem (List.mem_append_right _ (List.mem_singleton_self _))

theorem mem_answer {webhook : Option String} {status : WebhookStatus} :
    (eventId, WebhookStatus.ok) ∈ (s.answer webhook status).answered ↔
      (eventId, WebhookStatus.ok) ∈ s.answered ∨ webhook = some eventId ∧ status = .ok := by
  simp [Service.answer]

/-- The rows have different event ids, and each answer with ok has its row. -/
structure Service.Audits (s : Service) : Prop where
  keyed : s.Keyed
  audited : Audited s

/-- Where each new answer with ok has its row, all of them have. -/
theorem Service.Audits.of_logs (h : s.Audits) (hlogs : Logs s s')
    (hnew : ∀ eventId, (eventId, WebhookStatus.ok) ∈ s'.answered → (eventId, WebhookStatus.ok) ∈ s.answered ∨
      eventId ∈ s'.tables.db.pixEvents.map PixEvent.eventId) : s'.Audits := by
  refine ⟨hlogs.keyed h.keyed, fun eventId hok => (eventRows_eq_one (hlogs.keyed h.keyed)).mpr ?_⟩
  rcases hnew eventId hok with hold | hrow
  · exact hlogs.rows ((eventRows_eq_one h.keyed).mp (h.audited eventId hold))
  · exact hrow

end Rows

/-! ### Steps -/

section Steps
variable {env : ServiceEnv} {s : Service} {eventId : String}

theorem startService_audits {request : ServiceRequest} (h : s.Audits) : (startService env request s).1.Audits := by
  rcases startService_started request with ⟨_, _, tables, -, hcreate, hs'⟩ | ⟨_, webhook, status, -, hstatus, hs'⟩ |
    ⟨now, -, hs'⟩ | hs'
  · rw [hs']
    exact h.of_logs (.of_created (create_created hcreate)) fun _ hok => .inl hok
  · rw [hs']
    refine h.of_logs (.of_events rfl) fun eventId hok => .inl ?_
    rcases mem_answer.mp hok with hold | ⟨-, hok⟩
    · exact hold
    · exact absurd hok hstatus
  · rw [hs']
    exact h.of_logs (.of_events rfl) fun _ hok => .inl hok
  · rw [hs']
    exact h

theorem committed_of_finds {webhook : Option String} {change : CollectionChange} {answer : ServiceAnswer}
    (hfinds : FindsOrder s (.commitCollection webhook change) answer)
    (hcommitted : committedCollection s (.commitCollection webhook change) answer = some change) : webhook = none := by
  cases webhook with
  | none => rfl
  | some webhook => simp [FindsOrder, answersWithoutOrder, hcommitted] at hfinds

/-- An event that was made of a webhook is added with the commit of its order. -/
theorem resumeService_audits {call : ServiceCall} {answer : ServiceAnswer} (h : s.Audits)
    (hmade : call.Made env.settings) (hfinds : FindsOrder s call answer) :
    (resumeService env call answer s).1.Audits := by
  have hresumed : ServiceResumed env call answer s _ := resumeService_resumed call answer
  rcases hresumed with ⟨_, _, event, rfl, rfl, hfind, -⟩ | ⟨webhook, change, db, rfl, hcommit, hs'⟩ |
    ⟨webhook, change, tables, rfl, hcommitted, hcommit, hs'⟩ | ⟨batch, answer', rfl, -, hs'⟩ | ⟨-, hs'⟩
  · simp [FindsOrder, answersWithoutOrder, hfind] at hfinds
  · rw [hs']
    obtain ⟨hlogs, hrow⟩ : Logs s ((s.setDb db).answer webhook .ok) ∧ ∀ event ∈ change.event, _ :=
      Logs.of_commit hcommit rfl
    refine h.of_logs hlogs fun eventId hok => ?_
    rcases mem_answer.mp hok with hold | ⟨rfl, -⟩
    · exact .inl hold
    · obtain ⟨event, hevent, rfl⟩ := hmade.2 eventId rfl
      exact .inr (hrow event hevent)
  · obtain rfl := committed_of_finds hfinds hcommitted
    rw [hs']
    refine h.of_logs (.of_events (commitCollection_frame hcommit).2) fun eventId hok => .inl ?_
    exact (mem_answer.mp hok).resolve_right fun hnew => absurd hnew.1 nofun
  · rw [hs']
    exact h.of_logs (.of_events rfl) fun _ hok => .inl hok
  · rw [hs']
    exact h

/-- Up to its lookup, a webhook writes nothing. -/
theorem receiveCorpxWebhook_tables {fresh : Fresh} {webhook : CorpXWebhook} :
    (receiveCorpxWebhook env fresh webhook s).1.tables = s.tables := by
  unfold receiveCorpxWebhook
  split
  · rfl
  · split <;> rfl

/-- A commit of a webhook whose event has its row already is refused. -/
theorem resumeService_tables {call : ServiceCall} {answer : ServiceAnswer} (hmade : call.Made env.settings)
    (hfinds : FindsOrder s call answer) (hwebhook : call.webhook? = some eventId)
    (hrow : eventId ∈ s.tables.db.pixEvents.map PixEvent.eventId) :
    (resumeService env call answer s).1.tables = s.tables := by
  have hresumed : ServiceResumed env call answer s _ := resumeService_resumed call answer
  rcases hresumed with ⟨_, _, _, -, -, -, hs'⟩ | ⟨webhook, change, db, rfl, hcommit, -⟩ |
    ⟨webhook, change, _, rfl, hcommitted, -, -⟩ | ⟨_, _, rfl, -, -⟩ | ⟨-, hs'⟩
  · rw [hs']
    rfl
  · obtain ⟨_, -, hnew, -, -⟩ := Db.commit_inv hcommit
    obtain ⟨event, hevent, rfl⟩ := hmade.2 eventId hwebhook
    exact absurd hrow (Table.find_eq_none.mp (hnew event hevent))
  · obtain rfl := committed_of_finds hfinds hcommitted
    cases hwebhook
  · cases hwebhook
  · rw [hs']

end Steps

/-! ### Runs -/

section Runs
variable {env : ServiceEnv} {c : Config Service ServiceCall} {op : Op ServiceRequest ServiceAnswer}
  {ops : List (Op ServiceRequest ServiceAnswer)}

theorem auditOutline : Outline (pixService env) (fun _ _ => True) FindsOrder Service.Audits
    (fun _ call => call.Made env.settings) (fun _ _ => True) where
  start request s h _ := ⟨startService_audits h, trivial, startService_made request s⟩
  resume _ answer s h hmade hfinds := ⟨resumeService_audits h hmade hfinds, trivial, resumeService_made hmade answer s⟩
  stable _ _ _ _ hmade := hmade

theorem auditedOnce_of_unchanged (h : c.shared.Audits) (hnext : (next (pixService env).step c op).shared = c.shared) :
    AuditedOnce env c op := by
  unfold AuditedOnce NoFurtherEffect
  rw [hnext]
  exact ⟨h.audited, fun _ _ _ => rfl⟩

theorem auditedOnce_of_allows (hc : Holds Service.Audits (fun _ call => call.Made env.settings) c)
    (hallows : Allows (fun _ _ => True) FindsOrder c op) : AuditedOnce env c op := by
  cases hstep : (pixService env).step c op with
  | error e => exact auditedOnce_of_unchanged hc.1 (congrArg Config.shared (next_of_error hstep))
  | ok c' =>
    have hnext : next (pixService env).step c op = c' := next_of_ok hstep
    have haudited : Audited (next (pixService env).step c op).shared :=
      hnext ▸ (auditOutline.step hc hallows hstep).1.audited
    refine ⟨haudited, fun eventId hwebhook hok => ?_⟩
    have hrow := (eventRows_eq_one hc.1.keyed).mp (hc.1.audited eventId hok)
    cases step_moved hstep with
    | start request hop hc' =>
      subst hop hc'
      rw [hnext]
      cases request with
      | receiveCorpxWebhook fresh webhook => exact receiveCorpxWebhook_tables
      | create | reconcileOrder | cancelOrder | cancelCollection | sendPendingCallbacks => cases hwebhook
    | resume i answer call rest hop hcall hcalls hc' =>
      subst hop hc'
      rw [hnext]
      have hmade := hc.2 call (hcalls.mem_iff.mpr List.mem_cons_self)
      have hwebhook : call.webhook? = some eventId := by simpa [webhookOf, hcall] using hwebhook
      exact resumeService_tables hmade (hallows call hcall) hwebhook hrow
    | crash i call rest hop hcalls hc' =>
      subst hop hc'
      rw [hnext]

end Runs
section Examples

instance (s : Service) (call : ServiceCall) (answer : ServiceAnswer) : Decidable (FindsOrder s call answer) :=
  inferInstanceAs (Decidable (_ = false))

instance (s : Service) : Decidable (Audited s) :=
  decidable_of_iff (∀ answer ∈ s.answered, answer.2 = .ok → s.eventRows answer.1 = 1)
    ⟨fun h _ hok => h _ hok rfl, fun h _ hmem hok => h _ (hok ▸ hmem)⟩

end Examples
end CredBridge.PixService
