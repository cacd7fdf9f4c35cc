import CredBridge.Api.PixEffects
import CredBridge.PixService.Outbox

/-! # One effect of each outbox callback

The worker sends a callback again and again, with the same event and the same body; the API does what follows the
insertion of an event's row once. The invariant of the API: what was done for an event, and what the calls past the
insertion may still do for it, is at most once together, and nothing before the row is there. -/

namespace CredBridge.Api
open Concurrent Machine Result

section Api
variable {σ : Type} {env : PixEnv σ} {s : PixState σ} {c c' : Config (PixState σ) PixCall}
  {op : Op PixRequest PixReply} {call : PixCall} {eventId : String} {act : Act}

def PixState.times (eventId : String) (act : Act) (s : PixState σ) : Nat := s.journal.count (eventId, act)

/-- What follows the insertion of an event's row is done at most once. -/
def EffectsOnce (s : PixState σ) : Prop := ∀ eventId act, s.times eventId act ≤ 1

def PixCall.mayDo (eventId : String) (act : Act) (call : PixCall) : Nat :=
  if call.callback?.map Callback.eventId = some eventId ∧ act ∈ call.acts then 1 else 0

def PixState.rows (s : PixState σ) (eventId : String) : Nat := if s.recorded eventId then 1 else 0

/-- What was done and what may still be done for an event is at most once together, and only if its row is there. -/
def AtMostRecorded (c : Config (PixState σ) PixCall) : Prop :=
  ∀ eventId act, c.potential (PixState.times eventId act) (PixCall.mayDo eventId act) ≤ c.shared.rows eventId

theorem count_done (call : PixCall) : call.done.count (eventId, act) ≤ call.mayDo eventId act := by
  unfold PixCall.done PixCall.mayDo
  cases hcallback : call.callback? with
  | none => exact Nat.zero_le _
  | some callback =>
    cases hact : call.act? with
    | none => exact Nat.zero_le _
    | some a =>
      have hmem := acts_of_act? hact
      by_cases he : callback.eventId = eventId ∧ a = act
      · obtain ⟨rfl, rfl⟩ := he
        simp [hmem]
      · have hne : (callback.eventId, a) ≠ (eventId, act) := fun h => he ⟨congrArg Prod.fst h, congrArg Prod.snd h⟩
        simp [hne]

theorem follows_le {next : PixCall} (h : call.Follows next) (eventId : String) (act : Act) :
    call.done.count (eventId, act) + next.mayDo eventId act ≤ call.mayDo eventId act := by
  by_cases hnext : next.callback?.map Callback.eventId = some eventId ∧ act ∈ next.acts
  · obtain ⟨hmem, hne⟩ := h.acts act hnext.2
    have hdone : call.done.count (eventId, act) = 0 := by
      unfold PixCall.done
      cases hcallback : call.callback? with
      | none => rfl
      | some callback =>
        cases hact : call.act? with
        | none => rfl
        | some a =>
          have hne : (callback.eventId, a) ≠ (eventId, act) := fun he => hne (hact.trans (congrArg some (congrArg Prod.snd he)))
          simp [hne]
    rw [hdone, PixCall.mayDo, if_pos hnext, PixCall.mayDo, if_pos ⟨h.callback ▸ hnext.1, hmem⟩]
  · rw [PixCall.mayDo.eq_1 eventId act next, if_neg hnext]
    exact count_done call

theorem progress_le {r : PixState σ × Option PixCall} (h : Progress call s r) (eventId : String) (act : Act) :
    r.1.times eventId act + weight (PixCall.mayDo eventId act) r.2 ≤ s.times eventId act + call.mayDo eventId act := by
  have htimes : r.1.times eventId act ≤ s.times eventId act + call.done.count (eventId, act) := by
    unfold PixState.times
    rcases h.journal with hj | hj
    · rw [hj]
      exact Nat.le_add_right _ _
    · rw [hj, List.count_append]
  obtain ⟨s₁, _ | next⟩ := r
  · exact Nat.le_trans htimes (Nat.add_le_add_left (count_done call) _)
  · rcases h.next next rfl with ⟨rfl, hj⟩ | hfollows
    · unfold PixState.times
      rw [hj]
      exact Nat.le_refl _
    · have hle := follows_le hfollows eventId act
      refine Nat.le_trans (Nat.add_le_add_right htimes _) ?_
      show s.times eventId act + call.done.count (eventId, act) + next.mayDo eventId act ≤ _
      omega

theorem mayDo_eq_zero (h : call.callback?.map Callback.eventId ≠ some eventId) : call.mayDo eventId act = 0 :=
  if_neg fun hmay => h hmay.1

theorem mayDo_le_one : call.mayDo eventId act ≤ 1 := by
  unfold PixCall.mayDo
  split
  · exact Nat.le_refl 1
  · exact Nat.zero_le 1

theorem rows_le_one (s : PixState σ) (eventId : String) : s.rows eventId ≤ 1 := by
  unfold PixState.rows
  split
  · exact Nat.le_refl 1
  · exact Nat.zero_le 1

theorem rows_record {callback : Callback} (hnew : s.recorded callback.eventId = false) (eventId : String) :
    (s.record callback).rows eventId = s.rows eventId + if callback.eventId = eventId then 1 else 0 := by
  unfold PixState.rows
  rw [recorded_record]
  by_cases he : callback.eventId = eventId
  · subst he
    simp [hnew]
  · simp [he]

theorem start_acts {request : PixRequest} (h : (startPixCall env request s).2 = some call) : call.acts = [] := by
  rcases start_next h with ⟨callback, -, rfl⟩ | ⟨userId, dto, tx, -, -, rfl⟩ <;> rfl

/-- The insertion of a row brings what may be done for its event. -/
theorem recorded_le {callback : Callback} {r : PixState σ × Option PixCall} {reply : PixReply}
    (h : Recorded env callback s r reply) (eventId : String) (act : Act) :
    ∃ n, r.1.rows eventId = s.rows eventId + n ∧
      r.1.times eventId act + weight (PixCall.mayDo eventId act) r.2 ≤ s.times eventId act + n := by
  cases h with
  | waits _ hr =>
    subst hr
    refine ⟨0, rfl, ?_⟩
    have hwaiting : (PixCall.recordEvent callback).mayDo eventId act = 0 := if_neg fun hmay => by cases hmay.2
    show s.times eventId act + (PixCall.recordEvent callback).mayDo eventId act ≤ _
    rw [hwaiting]
  | duplicate _ _ hr | raised _ _ hr =>
    subst hr
    exact ⟨0, rfl, Nat.le_refl _⟩
  | lost _ _ hnew hr | finished _ hnew _ hr =>
    subst hr
    exact ⟨_, rows_record hnew eventId, Nat.le_add_right _ _⟩
  | next _ hnew next hcallback _ hr =>
    subst hr
    refine ⟨_, rows_record hnew eventId, Nat.add_le_add_left ?_ _⟩
    show next.mayDo eventId act ≤ _
    split
    · exact mayDo_le_one
    · next he =>
      refine Nat.le_of_eq (mayDo_eq_zero ?_)
      rw [hcallback]
      exact fun h => he (Option.some.inj h)

theorem AtMostRecorded.step (hc : AtMostRecorded c) (hstep : (pixApi env).step c op = .ok c') : AtMostRecorded c' := by
  intro eventId act
  cases step_moved hstep with
  | start request hop hc' =>
    subst hop hc'
    obtain ⟨hjournal, hevents⟩ := start_kept env request c.shared
    have hrows : (startPixCall env request c.shared).1.rows eventId = c.shared.rows eventId := by
      unfold PixState.rows
      rw [recorded_of_webhookEvents hevents]
    show _ ≤ (startPixCall env request c.shared).1.rows eventId
    rw [hrows]
    refine Nat.le_trans (potential_start_le (n := 0) ?_) (hc eventId act)
    have hweight : weight (PixCall.mayDo eventId act) (startPixCall env request c.shared).2 = 0 :=
      weight_eq_zero fun next hnext => if_neg fun hmay => by rw [start_acts hnext] at hmay; cases hmay.2
    show (startPixCall env request c.shared).1.times eventId act + weight _ (startPixCall env request c.shared).2 ≤ _
    rw [hweight, PixState.times, hjournal]
    exact Nat.le_refl _
  | crash i call rest hop hcalls hc' =>
    subst hop hc'
    exact Nat.le_trans (potential_crash_le hcalls) (hc eventId act)
  | resume i reply call rest hop hcall hcalls hc' =>
    subst hop hc'
    have hold := hc eventId act
    by_cases hrecord : ∃ callback, call = .recordEvent callback
    · obtain ⟨callback, rfl⟩ := hrecord
      obtain ⟨n, hrows, hle⟩ := recorded_le (resume_recorded env callback reply c.shared) eventId act
      show _ ≤ (resumePixCall env (.recordEvent callback) reply c.shared).1.rows eventId
      rw [hrows]
      refine Nat.le_trans (potential_resume_le (n := n) hcalls ?_) (Nat.add_le_add_right hold n)
      exact Nat.le_trans hle (Nat.add_le_add_right (Nat.le_add_right _ _) n)
    · have hcall := not_exists.mp hrecord
      have hrows : (resumePixCall env call reply c.shared).1.rows eventId = c.shared.rows eventId := by
        unfold PixState.rows
        rw [recorded_of_webhookEvents (resume_webhookEvents hcall reply c.shared)]
      show _ ≤ (resumePixCall env call reply c.shared).1.rows eventId
      rw [hrows]
      exact Nat.le_trans (potential_resume_le (n := 0) hcalls
        (progress_le (resume_progress hcall reply c.shared) eventId act)) hold

theorem AtMostRecorded.nothing_done (hjournal : s.journal = []) : AtMostRecorded ⟨s, []⟩ := by
  intro eventId act
  show s.journal.count (eventId, act) + 0 ≤ _
  rw [hjournal]
  exact Nat.zero_le _

theorem AtMostRecorded.effectsOnce (hc : AtMostRecorded c) : EffectsOnce c.shared := fun eventId act =>
  Nat.le_trans (Nat.le_trans (Nat.le_add_right _ _) (hc eventId act)) (rows_le_one _ _)

end Api

/-! ### From the outbox to the effects -/

open PixService (Sender Batch SenderRequest SenderAnswer OutboxCallback OutboxSettings PythonText deliveryOf outboxWorkers
  outboxOutline)

/-- The outbox workers of the Pix service, and the API. -/
structure Delivering (σ : Type) where
  sender : Config Sender Batch
  api : Config (PixState σ) PixCall

inductive DeliveryOp where
  | sender (op : Op SenderRequest SenderAnswer)
  /-- A request that was sent reaches the API, for the first time or again. -/
  | deliver (i : Nat)
  | api (op : Op PixRequest PixReply)

section System
variable {σ : Type} (text : PythonText) (settings : OutboxSettings) (env : PixEnv σ)
  (readBody : String → Option Callback)

def deliveryStep (d : Delivering σ) : DeliveryOp → Except Refused (Delivering σ)
  | .sender op => do
    let sender ← (outboxWorkers text settings).step d.sender op
    pure { d with sender }
  | .deliver i => do
    let delivery ← orThrow d.sender.shared.sent[i]? .notWaiting
    let callback ← orThrow (readBody delivery.body) .notWaiting
    let api ← (pixApi env).step d.api (.start (.callback callback))
    pure { d with api }
  | .api op => do
    let api ← (pixApi env).step d.api op
    pure { d with api }

/-- All deliveries of a row carry its event and the same body, and what follows the insertion of the event that the API
    reads in it is done at most once. -/
structure DeliveredOnce (d : Delivering σ) : Prop where
  faithful : ∀ x ∈ d.sender.shared.sent, ∃ row ∈ d.sender.shared.outbox, deliveryOf text row = .ok x
  same : ∀ x ∈ d.sender.shared.sent, ∀ y ∈ d.sender.shared.sent, x.eventId = y.eventId → x = y
  once : ∀ x ∈ d.sender.shared.sent, ∀ callback ∈ readBody x.body, ∀ act, d.api.shared.times callback.eventId act ≤ 1

structure Delivering.Sound (d : Delivering σ) : Prop where
  sender : Holds (Sender.Faithful text) Batch.Loaded d.sender
  api : AtMostRecorded d.api

theorem Delivering.Sound.step {d d' : Delivering σ} {op : DeliveryOp} (hd : d.Sound text)
    (hstep : deliveryStep text settings env readBody d op = .ok d') : d'.Sound text := by
  cases op with
  | sender op =>
    obtain ⟨sender, hsender, hstep⟩ := bind_eq_ok.mp hstep
    cases pure_eq_ok.mp hstep
    have hallows := allows_all (fun _ _ => trivial) (fun _ _ _ => trivial) d.sender op
    exact ⟨outboxOutline.step hd.sender hallows hsender, hd.api⟩
  | deliver i =>
    obtain ⟨delivery, -, hstep⟩ := orThrow_bind_eq_ok.mp hstep
    obtain ⟨callback, -, hstep⟩ := orThrow_bind_eq_ok.mp hstep
    obtain ⟨api, hapi, hstep⟩ := bind_eq_ok.mp hstep
    cases pure_eq_ok.mp hstep
    exact ⟨hd.sender, hd.api.step hapi⟩
  | api op =>
    obtain ⟨api, hapi, hstep⟩ := bind_eq_ok.mp hstep
    cases pure_eq_ok.mp hstep
    exact ⟨hd.sender, hd.api.step hapi⟩

theorem Delivering.Sound.deliveredOnce {d : Delivering σ} (hd : d.Sound text) : DeliveredOnce text readBody d where
  faithful := hd.sender.1.sent
  same _ hx _ hy hid := hd.sender.1.eq_of_eventId hx hy hid
  once _ _ callback _ act := hd.api.effectsOnce callback.eventId act

/-- Each row of the outbox has its effects at most once, however its callback is sent, lost, repeated and handled. -/
theorem callback_effected_at_most_once {outbox : List OutboxCallback} (api : PixState σ)
    (hkeyed : Table.Keyed OutboxCallback.eventId outbox) (hjournal : api.journal = []) (ops : List DeliveryOp) :
    Throughout (deliveryStep text settings env readBody) (DeliveredOnce text readBody)
      ⟨⟨⟨outbox, []⟩, []⟩, ⟨api, []⟩⟩ ops := by
  have hsender : Holds (Sender.Faithful text) Batch.Loaded ⟨⟨outbox, []⟩, []⟩ :=
    ⟨⟨hkeyed, List.forall_mem_nil _⟩, List.forall_mem_nil _⟩
  have hstart : Delivering.Sound text (⟨⟨⟨outbox, []⟩, []⟩, ⟨api, []⟩⟩ : Delivering σ) :=
    ⟨hsender, .nothing_done hjournal⟩
  have hstep : ∀ d op d', Delivering.Sound text d → deliveryStep text settings env readBody d op = .ok d' →
      d'.Sound text := fun _ _ _ hd hstep => hd.step text settings env readBody hstep
  exact (throughout_of_step hstep hstart ops).mono fun _ hd => hd.deliveredOnce text readBody

end System

section Examples

def paidCollection : PixCollectionCallback := ⟨"event", "order", "receivable", "identifier", "PAID", 100, none, none⟩

def paidBody : String :=
  "\x7b\"amount\":100.0,\"collectionOrderId\":\"order\",\"endToEndId\":null,\"eventId\":\"event\"," ++
    "\"identifier\":\"identifier\",\"paidAt\":null,\"receivableId\":\"receivable\",\"status\":\"PAID\"," ++
    "\"type\":\"COLLECTION\"\x7d"

def paidRow : OutboxCallback where
  eventId := "event"
  pixOrderId := none
  targetUrl := "http://api/v1/pix/webhooks/orders"
  payloadJson :=
    .object [("eventId", .string "event"), ("type", .string "COLLECTION"), ("collectionOrderId", .string "order"),
      ("receivableId", .string "receivable"), ("identifier", .string "identifier"), ("status", .string "PAID"),
      ("amount", .number 100), ("endToEndId", .null), ("paidAt", .null)]
  status := .pending
  attemptCount := 0
  nextAttemptAt := some 0
  lastError := none
  createdAt := 0

/-- Two workers send the callback at once, and the API gets both requests before it inserts the row of the event. -/
theorem callback_effected_at_most_once_twice_sent :
    Throughout (deliveryStep ⟨id, fun _ => paidBody⟩ ⟨5, 30⟩ testPixEnv fun body =>
        if body = paidBody then some (.collection paidCollection) else none)
      (DeliveredOnce ⟨id, fun _ => paidBody⟩ fun body =>
        if body = paidBody then some (.collection paidCollection) else none)
      ⟨⟨⟨[paidRow], []⟩, []⟩, ⟨{ chain := () }, []⟩⟩
      [.sender (.start (.sendPendingCallbacks 0)), .sender (.start (.sendPendingCallbacks 0)), .deliver 0, .deliver 1,
        .api (.resume 0 (.ok "")), .api (.resume 0 (.ok "")), .api (.resume 0 (.ok ""))] :=
  callback_effected_at_most_once _ _ _ _ _ (show Table.Keyed OutboxCallback.eventId [paidRow] from List.nodup_singleton _)
    rfl _

end Examples
end CredBridge.Api
