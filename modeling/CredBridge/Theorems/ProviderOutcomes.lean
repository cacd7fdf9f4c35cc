import CredBridge.Theorems.StatusCallbacks
import CredBridge.Theorems.WebhookAudit

/-! # Outcomes that arrive early

The provider may report what became of an order before the creation of the order is committed. A webhook that finds no
order is answered with ok, and what it reported is kept nowhere: not in the order, which comes after it, and not in the
log, whose row is made but not added. No outcome is lost along the runs in which no webhook is answered so that names an
order which is committed by then or later. The webhooks that were answered are noted beside the service. The invariant:
each of them has its row, or names no order. -/

namespace CredBridge.PixService
open Concurrent Machine Result

def OrderKey.Names (order : PixOrder) : OrderKey → Prop
  | .identifier value => ∃ identifier ∈ (columnText value).toOption, order.identifier = identifier
  | .txid value => ∃ txid ∈ (columnText value).toOption, order.corpxTxid = some txid
  | .paymentId value => ∃ paymentId ∈ (columnText value).toOption, order.corpxPaymentId = some paymentId

/-- The event is looked up by a column of the order. -/
def CorpXWebhook.Names (webhook : CorpXWebhook) (order : PixOrder) : Prop :=
  ∃ keys ∈ (orderKeys webhook).toOption, ∃ key ∈ keys, key.Names order

def CorpXWebhook.ReflectedBy (webhook : CorpXWebhook) (order : PixOrder) : Prop :=
  ∀ status ∈ corpxEventToStatus webhook.eventType, order.status = status

def Service.Retains (s : Service) (webhook : CorpXWebhook) : Prop :=
  webhook.eventId ∈ s.tables.db.pixEvents.map PixEvent.eventId

/-- The webhooks that were answered with 2xx, and how. -/
abbrev Answered := List (CorpXWebhook × WebhookStatus)

/-- A step answers the webhook that it serves, if it answers any. -/
def noteAnswer (request : ServiceRequest) (s s' : Service) : Answered :=
  match request with
  | .receiveCorpxWebhook _ webhook => (s'.answered.drop s.answered.length).map fun answer => (webhook, answer.2)
  | _ => []

def notingService (env : ServiceEnv) : Handler (Service × Answered) (ServiceRequest × ServiceCall) ServiceRequest ServiceAnswer :=
  (pixService env).noting noteAnswer

/-- The notes change nothing that the service does. -/
theorem run_notingService (env : ServiceEnv) (c : Config (Service × Answered) (ServiceRequest × ServiceCall))
    (ops : List (Op ServiceRequest ServiceAnswer)) :
    run (pixService env).step c.withoutNotes ops = (run (notingService env).step c ops).withoutNotes :=
  run_noting (pixService env) noteAnswer ops

/-- An order that is committed reflects each event of it that was answered with 2xx, or the event is in the log. -/
def NoOutcomeLost (c : Config (Service × Answered) (ServiceRequest × ServiceCall)) : Prop :=
  ∀ answered ∈ c.shared.2, ∀ order ∈ c.shared.1.tables.db.pixOrders, answered.1.Names order →
    answered.1.ReflectedBy order ∨ c.shared.1.Retains answered.1

def NamesNone (s : Service) (webhook : CorpXWebhook) : Prop := ∀ order ∈ s.tables.db.pixOrders, ¬webhook.Names order

/-- No order is committed that was named by a webhook which was answered without being logged; and no event of another
    account names an order. -/
def StartsOnTime (env : ServiceEnv) (s : Service × Answered) : ServiceRequest → Prop
  | .create fresh creation => ∀ tables ∈ (create env fresh s.1.tables creation).toOption,
      ∀ answered ∈ s.2, ¬s.1.Retains answered.1 → NamesNone { s.1 with tables } answered.1
  | .receiveCorpxWebhook _ webhook => ofOtherAccount env webhook = true → NamesNone s.1 webhook
  | _ => True

/-- A webhook that is answered without an order names none that is committed. -/
def AnswersOnTime (s : Service × Answered) (call : ServiceRequest × ServiceCall) (answer : ServiceAnswer) : Prop :=
  answersWithoutOrder s.1 call.2 answer = true →
    match call.1 with
    | .receiveCorpxWebhook _ webhook => NamesNone s.1 webhook
    | _ => True

def ServiceRequest.webhookId : ServiceRequest → Option String
  | .receiveCorpxWebhook _ webhook => some webhook.eventId
  | _ => none

/-- A call answers the webhook that it serves, and commits its event. -/
structure Serves (env : ServiceEnv) (call : ServiceRequest × ServiceCall) : Prop where
  webhook : call.2.webhook? = call.1.webhookId
  made : call.2.Made env.settings

/-- What was answered is in the log, or names no order. -/
def Accounted (s : Service × Answered) : Prop :=
  ∀ answered ∈ s.2, s.1.Retains answered.1 ∨ NamesNone s.1 answered.1

section Steps
variable {env : ServiceEnv} {s s' : Service} {answers : Answered} {request : ServiceRequest} {webhook : CorpXWebhook}

theorem SameRow.names {order order' : PixOrder} (h : SameRow order order') (hnames : webhook.Names order') :
    webhook.Names order := by
  obtain ⟨keys, hkeys, key, hkey, hnames⟩ := hnames
  refine ⟨keys, hkeys, key, hkey, ?_⟩
  rw [h] at hnames
  exact hnames

/-- No step takes a row from the log, and a commit changes no column that an order is named by. -/
structure Stays (s s' : Service) : Prop where
  rows : s.tables.db.pixEvents.map PixEvent.eventId ⊆ s'.tables.db.pixEvents.map PixEvent.eventId
  orders : ∀ order' ∈ s'.tables.db.pixOrders, ∃ order ∈ s.tables.db.pixOrders, SameRow order order'

theorem Stays.of_rows (horders : s'.tables.db.pixOrders = s.tables.db.pixOrders)
    (hevents : s'.tables.db.pixEvents = s.tables.db.pixEvents) : Stays s s' where
  rows := by rw [hevents]; exact List.Subset.refl _
  orders order' horder' := ⟨order', horders ▸ horder', .refl order'⟩

theorem Stays.of_tables (h : s'.tables = s.tables) : Stays s s' := .of_rows (by rw [h]) (by rw [h])

theorem Stays.namesNone (h : Stays s s') (hnone : NamesNone s webhook) : NamesNone s' webhook := by
  intro order' horder' hnames
  obtain ⟨order, horder, hsame⟩ := h.orders order' horder'
  exact hnone order horder (hsame.names hnames)

theorem Accounted.stays (h : Accounted (s, answers)) (hstays : Stays s s') : Accounted (s', answers) := by
  intro answered hmem
  rcases h answered hmem with hretained | hnone
  · exact .inl (hstays.rows hretained)
  · exact .inr (hstays.namesNone hnone)

theorem Accounted.append {notes : Answered} (h : Accounted (s, answers))
    (hnotes : ∀ answered ∈ notes, s.Retains answered.1 ∨ NamesNone s answered.1) : Accounted (s, answers ++ notes) := by
  intro answered hmem
  rcases List.mem_append.mp hmem with hold | hnew
  · exact h answered hold
  · exact hnotes answered hnew

/-- A step notes what it appends to the answers. -/
theorem noteAnswer_append {added : List (String × WebhookStatus)} (h : s'.answered = s.answered ++ added) :
    ∀ answered ∈ noteAnswer request s s', ∃ fresh, request = .receiveCorpxWebhook fresh answered.1 ∧
      ∃ answer ∈ added, answer.2 = answered.2 := by
  intro answered hmem
  unfold noteAnswer at hmem
  split at hmem
  · next fresh webhook =>
    rw [h, List.drop_left] at hmem
    obtain ⟨answer, hanswer, rfl⟩ := List.mem_map.mp hmem
    exact ⟨fresh, rfl, answer, hanswer, rfl⟩
  · cases hmem

theorem noteAnswer_nothing (h : s'.answered = s.answered) : noteAnswer request s s' = [] := by
  refine List.eq_nil_iff_forall_not_mem.mpr fun answered hmem => ?_
  obtain ⟨_, -, _, hnone, -⟩ := noteAnswer_append (h.trans (List.append_nil _).symm) answered hmem
  cases hnone

/-- What was answered stays accounted for where the step answers nothing. -/
theorem Accounted.silent (h : Accounted (s, answers)) (hstays : Stays s s') (hanswered : s'.answered = s.answered) :
    Accounted (s', answers ++ noteAnswer request s s') := by
  rw [noteAnswer_nothing hanswered, List.append_nil]
  exact h.stays hstays

theorem startService_accounted (h : Accounted (s, answers)) (hontime : StartsOnTime env (s, answers) request) :
    Accounted ((startService env request s).1, answers ++ noteAnswer request s (startService env request s).1) := by
  cases request with
  | create fresh creation =>
    cases hcreate : create env fresh s.tables creation with
    | error e =>
      have hs' : (startService env (.create fresh creation) s).1 = s := by
        simp only [startService, hcreate, Service.commit]
      rw [hs']
      exact h.silent (.of_tables rfl) rfl
    | ok tables =>
      have hs' : (startService env (.create fresh creation) s).1 = { s with tables } := by
        simp [startService, hcreate, Service.commit, Service.answer]
      rw [hs']
      refine Accounted.append (fun answered hmem => ?_) (List.forall_mem_nil _)
      rcases h answered hmem with hretained | -
      · exact .inl ((Logs.of_created (create_created hcreate)).rows hretained)
      · by_cases hretained : s.Retains answered.1
        · exact .inl ((Logs.of_created (create_created hcreate)).rows hretained)
        · exact .inr (hontime tables (by rw [hcreate]; rfl) answered hmem hretained)
  | reconcileOrder fresh pixOrderId | cancelOrder pixOrderId | cancelCollection collectionId =>
    exact h.silent (.of_tables rfl) rfl
  | receiveCorpxWebhook fresh webhook =>
    simp only [startService, receiveCorpxWebhook]
    split
    · next hother =>
      refine (h.stays (.of_tables rfl)).append fun answered hmem => ?_
      obtain ⟨_, hrequest, -⟩ := noteAnswer_append rfl answered hmem
      cases hrequest
      exact .inr (hontime hother)
    · split
      · exact h.silent (.of_tables rfl) rfl
      · next hprocessed =>
        refine (h.stays (.of_tables rfl)).append fun answered hmem => ?_
        obtain ⟨_, hrequest, -⟩ := noteAnswer_append rfl answered hmem
        cases hrequest
        obtain ⟨event, hfind⟩ := Option.isSome_iff_exists.mp (eventAlreadyProcessed_eq_ok.mp hprocessed).2
        exact .inl (List.mem_map.mpr ⟨event, Table.mem_of_find hfind, Table.key_of_find hfind⟩)
      · exact h.silent (.of_tables rfl) rfl
  | sendPendingCallbacks now => exact h.silent ⟨List.Subset.refl _, fun order horder => ⟨order, horder, .refl order⟩⟩ rfl

theorem Stays.of_commit {db : Db} {change : Change} (hcommit : s.tables.db.commit change = .ok db) (h : s'.tables.db = db) :
    Stays s s' where
  rows := (Logs.of_commit hcommit h).1.rows
  orders order' horder' := by
    obtain ⟨stored, hcommitted⟩ := commit_inv hcommit
    rcases hcommitted.cases (h ▸ horder') with rfl | ⟨hold, -⟩
    · exact ⟨stored, hcommitted.mem, sameRow_written⟩
    · exact ⟨order', hold, .refl order'⟩

theorem resumeService_accounted {call : ServiceRequest × ServiceCall} {answer : ServiceAnswer} (h : Accounted (s, answers))
    (hserves : Serves env call) (hontime : AnswersOnTime (s, answers) call answer) :
    Accounted ((resumeService env call.2 answer s).1,
      answers ++ noteAnswer call.1 s (resumeService env call.2 answer s).1) := by
  obtain ⟨request, call⟩ := call
  obtain ⟨hwebhook, hmade⟩ := hserves
  have hresumed : ServiceResumed env call answer s _ := resumeService_resumed call answer
  rcases hresumed with ⟨_, _, event, rfl, rfl, hfind, hs'⟩ | ⟨webhook, change, db, rfl, hcommit, hs'⟩ |
    ⟨webhook, change, tables, rfl, hcommitted, hcommit, hs'⟩ | ⟨batch, answer', -, -, hs'⟩ | ⟨-, hs'⟩
  · rw [hs']
    refine (h.stays (.of_tables rfl)).append fun answered hmem => ?_
    obtain ⟨_, rfl, -⟩ := noteAnswer_append rfl answered hmem
    exact .inr (hontime (by simp [answersWithoutOrder, hfind]))
  · rw [hs']
    have hstays : Stays s ((s.setDb db).answer webhook .ok) := .of_commit hcommit rfl
    refine (h.stays hstays).append fun answered hmem => ?_
    obtain ⟨_, rfl, -⟩ := noteAnswer_append rfl answered hmem
    obtain ⟨event, hevent, hid⟩ := hmade.2 answered.1.eventId hwebhook
    have hrow : event.eventId ∈ ((s.setDb db).answer webhook .ok).tables.db.pixEvents.map PixEvent.eventId :=
      (Logs.of_commit hcommit rfl).2 event hevent
    rw [hid] at hrow
    exact .inl hrow
  · rw [hs']
    obtain ⟨horders, hevents⟩ := commitCollection_frame hcommit
    have hstays : Stays s ({ s with tables }.answer webhook .ok) := .of_rows horders hevents
    refine (h.stays hstays).append fun answered hmem => ?_
    obtain ⟨_, rfl, -⟩ := noteAnswer_append rfl answered hmem
    cases hwebhook
    exact .inr (hstays.namesNone (hontime (by simp [answersWithoutOrder, hcommitted])))
  · rw [hs']
    exact h.silent (.of_rows rfl rfl) rfl
  · rw [hs']
    exact h.silent (.of_tables rfl) rfl

theorem startService_serves (request : ServiceRequest) :
    ∀ call ∈ (startService env request s).2, Serves env (request, call) := by
  intro call hcall
  refine ⟨?_, startService_made request s call hcall⟩
  cases request with
  | create fresh creation => cases hcall
  | reconcileOrder fresh pixOrderId | cancelOrder pixOrderId =>
    obtain ⟨_, -, rfl⟩ := Option.map_eq_some_iff.mp hcall
    rfl
  | cancelCollection collectionId =>
    obtain ⟨_, -, rfl⟩ := Option.map_eq_some_iff.mp hcall
    rfl
  | receiveCorpxWebhook fresh webhook =>
    simp only [startService, receiveCorpxWebhook] at hcall
    split at hcall
    · cases hcall
    · split at hcall
      · cases hcall
      · cases hcall
      · obtain ⟨_, -, rfl⟩ := Option.map_eq_some_iff.mp hcall
        rfl
  | sendPendingCallbacks now =>
    obtain ⟨_, -, rfl⟩ := Option.map_eq_some_iff.mp hcall
    rfl

theorem resumeService_serves {call : ServiceRequest × ServiceCall} (hserves : Serves env call) (answer : ServiceAnswer) :
    ∀ next ∈ (resumeService env call.2 answer s).2, Serves env (call.1, next) := by
  obtain ⟨request, call⟩ := call
  obtain ⟨hwebhook, hmade⟩ := hserves
  intro next hnext
  refine ⟨?_, resumeService_made hmade answer s next hnext⟩
  rcases resumeService_next hnext with ⟨_, _, _, _, rfl, -, rfl⟩ | ⟨_, _, event, _, _, rfl, -, -, -, rfl⟩ |
    ⟨_, rfl, rfl⟩ | ⟨_, _, _, rfl, -, rfl⟩ | rfl
  · exact hwebhook
  · have hserved : _ = some event.eventId := hmade
    exact hserved.symm.trans hwebhook
  · exact hwebhook
  · exact hwebhook
  · exact hwebhook

end Steps

/-! ### Runs -/

section Runs
variable {env : ServiceEnv} {ops : List (Op ServiceRequest ServiceAnswer)}

theorem accountedOutline : Outline (notingService env) (StartsOnTime env) AnswersOnTime Accounted (fun _ => Serves env)
    (fun _ _ => True) where
  start request s h hontime := by
    refine ⟨startService_accounted h hontime, trivial, fun call hcall => ?_⟩
    obtain ⟨f, hf, rfl⟩ := Option.map_eq_some_iff.mp hcall
    exact startService_serves request f hf
  resume call answer s h hserves hontime := by
    refine ⟨resumeService_accounted h hserves hontime, trivial, fun next hnext => ?_⟩
    obtain ⟨f, hf, rfl⟩ := Option.map_eq_some_iff.mp hnext
    exact resumeService_serves hserves answer f hf
  stable _ _ _ _ hserves := hserves

end Runs

section Examples

instance decidableKeyNames (order : PixOrder) : (key : OrderKey) → Decidable (key.Names order)
  | .identifier value => inferInstanceAs (Decidable (∃ identifier ∈ (columnText value).toOption, order.identifier = identifier))
  | .txid value => inferInstanceAs (Decidable (∃ txid ∈ (columnText value).toOption, order.corpxTxid = some txid))
  | .paymentId value =>
    inferInstanceAs (Decidable (∃ paymentId ∈ (columnText value).toOption, order.corpxPaymentId = some paymentId))

instance (webhook : CorpXWebhook) (order : PixOrder) : Decidable (webhook.Names order) :=
  inferInstanceAs (Decidable (∃ keys ∈ (orderKeys webhook).toOption, ∃ key ∈ keys, key.Names order))

instance (webhook : CorpXWebhook) (order : PixOrder) : Decidable (webhook.ReflectedBy order) :=
  inferInstanceAs (Decidable (∀ status ∈ corpxEventToStatus webhook.eventType, order.status = status))

instance (s : Service) (webhook : CorpXWebhook) : Decidable (s.Retains webhook) := inferInstanceAs (Decidable (_ ∈ _))

instance (c : Config (Service × Answered) (ServiceRequest × ServiceCall)) : Decidable (NoOutcomeLost c) :=
  inferInstanceAs (Decidable (∀ answered ∈ c.shared.2, ∀ order ∈ c.shared.1.tables.db.pixOrders,
    answered.1.Names order → answered.1.ReflectedBy order ∨ c.shared.1.Retains answered.1))

instance (s : Service) (webhook : CorpXWebhook) : Decidable (NamesNone s webhook) :=
  inferInstanceAs (Decidable (∀ order ∈ s.tables.db.pixOrders, ¬webhook.Names order))

instance decidableStartsOnTime (env : ServiceEnv) (s : Service × Answered) :
    (request : ServiceRequest) → Decidable (StartsOnTime env s request)
  | .create fresh creation =>
    inferInstanceAs (Decidable (∀ tables ∈ (create env fresh s.1.tables creation).toOption,
      ∀ answered ∈ s.2, ¬s.1.Retains answered.1 → NamesNone { s.1 with tables } answered.1))
  | .receiveCorpxWebhook _ webhook =>
    inferInstanceAs (Decidable (ofOtherAccount env webhook = true → NamesNone s.1 webhook))
  | .reconcileOrder .. | .cancelOrder _ | .cancelCollection _ | .sendPendingCallbacks _ => instDecidableTrue

instance decidableAnswersOnTime (s : Service × Answered) : (call : ServiceRequest × ServiceCall) →
    (answer : ServiceAnswer) → Decidable (AnswersOnTime s call answer)
  | (.receiveCorpxWebhook _ webhook, call), answer =>
    inferInstanceAs (Decidable (answersWithoutOrder s.1 call answer = true → NamesNone s.1 webhook))
  | (.create .., _), _ | (.reconcileOrder .., _), _ | (.cancelOrder _, _), _ | (.cancelCollection _, _), _
  | (.sendPendingCallbacks _, _), _ => .isTrue fun _ => trivial

/-- The provider's report on the withdrawal. -/
def withdrawalWebhook : List (Op ServiceRequest ServiceAnswer) :=
  [.start (.receiveCorpxWebhook ⟨"", "", "2", 1, 1⟩
      ⟨"completed", "pix.out.completed", .object [("identifier", .string "cbw_1")], .object []⟩),
    .resume 0 (.update (.database true)), .resume 0 (.update (.database true))]

end Examples
end CredBridge.PixService
