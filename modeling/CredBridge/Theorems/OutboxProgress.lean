import CredBridge.Lib.Rounds
import CredBridge.PixService.Outbox

/-! # No callback starves

One worker runs its batches one after the other, and between them orders queue new callbacks. A batch takes the first 50
callbacks that are due, in the order of their creation. A row is created when its transaction starts and comes to be seen
when this commits, so that new rows can come ahead of one that waits. Older callbacks come before a newer one again and
again, but only as often as they have attempts left: after a batch for each 50 of these, the callback has been attempted
(`due_callback_attempted`). When the API takes what it gets, every older callback is sent once, and a batch for each 50
of them is enough (`due_callback_sent`).

Both hold of batches that reach their commit. One that an exception ends writes nothing: while the request of one callback
raises, no batch gets past it, and every batch sends the older ones once more (`raising_callback_blocks`). -/

namespace CredBridge.PixService
open Concurrent Machine Result Rounds

/-- What happens between two batches, and a batch with its answers. -/
inductive OutboxEvent where
  | enqueue (callback : OutboxCallback)
  | batch (now : DateTime) (answers : List SenderAnswer)

def OutboxEvent.isBatch : OutboxEvent → Bool
  | .enqueue _ => false
  | .batch .. => true

/-- The callbacks that come to be queued. -/
def OutboxEvent.queued : OutboxEvent → List OutboxCallback
  | .enqueue callback => [callback]
  | .batch .. => []

/-- Another callback that was created no later. -/
def OutboxCallback.before (callback other : OutboxCallback) : Bool :=
  ahead OutboxCallback.eventId OutboxCallback.createdAt callback other

section Steps
variable (text : PythonText) (settings : OutboxSettings)

/-- The callbacks that a batch takes. -/
def Sender.taken (now : DateTime) (s : Sender) : List OutboxCallback := dueCallbacks now s.outbox

/-- A batch runs to its commit, beside no other one. -/
def outboxStep (s : Sender) : OutboxEvent → Except Unit Sender
  | .enqueue callback => pure (startSender text (.enqueue callback) s).1
  | .batch now answers =>
    pure ((outboxWorkers text settings).finish (startSender text (.sendPendingCallbacks now) s)
      (answers ++ [.database true]))

/-- A batch from `time` on whose payloads can be sent, and whose requests are each answered as `Q` tells. -/
def Completes (Q : SenderAnswer → Prop) (time : DateTime) (s : Sender) : OutboxEvent → Prop
  | .enqueue _ => True
  | .batch now answers => time ≤ now ∧ answers.length = (s.taken now).length ∧ (∀ answer ∈ answers, Q answer) ∧
      ∀ callback ∈ s.taken now, (deliveryOf text callback).toOption.isSome = true

/-- An answer that does not end the batch. -/
def SenderAnswer.Heard : SenderAnswer → Prop
  | .response .. | .networkError .. => True
  | .raised | .database _ => False

/-- The API took the request. -/
def SenderAnswer.Taken : SenderAnswer → Prop
  | .response statusCode .. => 200 ≤ statusCode ∧ statusCode < 300
  | _ => False

/-- The requests that a callback can still be sent in. -/
def attemptsLeft (callback : OutboxCallback) : Nat :=
  if callback.status = .pending then settings.callbackMaxAttempts - 1 - callback.attemptCount + 1 else 0

/-- A pending callback that is sent, and answered as `Q` tells. -/
def Sends (Q : SenderAnswer → Prop) (callback changed : OutboxCallback) : Prop :=
  callback.status = .pending ∧ ∃ answer, Q answer ∧ afterSend settings (countAttempt callback) answer = some changed

/-- A batch from `time` on in which the request of `raising` is not answered, and those before it are. -/
def EndsAt (raising : OutboxCallback) (time : DateTime) (s : Sender) : OutboxEvent → Prop
  | .enqueue _ => True
  | .batch now answers => time ≤ now ∧ ∃ before after heard, s.taken now = before ++ raising :: after ∧
      answers = heard ++ [.raised] ∧ heard.length = before.length ∧ (∀ answer ∈ heard, answer.Heard) ∧
      ∀ callback ∈ before ++ [raising], (deliveryOf text callback).toOption.isSome = true

end Steps

/-! ### What a batch writes -/

section Batch
variable {text : PythonText} {settings : OutboxSettings} {Q : SenderAnswer → Prop} {s : Sender}
  {rows callbacks : List OutboxCallback} {callback changed : OutboxCallback} {attempts : List Attempt}

theorem Sends.attempted (h : Sends settings Q callback changed) : Attempted settings callback changed := by
  obtain ⟨-, answer, -, hsend⟩ := h
  exact afterSend_attempted hsend

theorem Sends.eventId (h : Sends settings Q callback changed) : changed.eventId = callback.eventId := by
  rw [h.attempted.row]

theorem Sends.createdAt (h : Sends settings Q callback changed) : changed.createdAt = callback.createdAt := by
  rw [h.attempted.row]

theorem Sends.attemptCount (h : Sends settings Q callback changed) :
    changed.attemptCount = callback.attemptCount + 1 := by
  rw [h.attempted.row]

/-- The attempts, written to the rows that they were loaded from, serve these. -/
theorem served_writeAll (hkeyed : Table.Keyed OutboxCallback.eventId rows)
    (hdistinct : Table.Keyed OutboxCallback.eventId (attempts.map Attempt.loaded))
    (hloaded : ∀ attempt ∈ attempts, attempt.loaded ∈ rows)
    (hsends : ∀ attempt ∈ attempts, Sends settings Q attempt.loaded attempt.changed) :
    Served OutboxCallback.eventId (Sends settings Q) (attempts.map Attempt.loaded) rows
      (attempts.foldl Attempt.write rows) := by
  induction attempts generalizing rows with
  | nil =>
    refine List.forall₂_same.mpr fun row _ => ?_
    rw [if_neg (by exact List.not_mem_nil)]
  | cons attempt attempts ih =>
    have hmem := hloaded attempt List.mem_cons_self
    have hsend := hsends attempt List.mem_cons_self
    have hwrite : Attempt.write rows attempt =
        Table.modify OutboxCallback.eventId attempt.loaded.eventId (fun _ => attempt.changed) rows :=
      write_loaded hkeyed hmem hsend.attempted
    have hothers : attempt.loaded.eventId ∉ (attempts.map Attempt.loaded).map OutboxCallback.eventId := hdistinct.head
    have hloaded' : ∀ a ∈ attempts, a.loaded ∈ Attempt.write rows attempt := fun a ha => by
      rw [hwrite]
      refine Table.mem_modify.mpr ⟨a.loaded, hloaded a (List.mem_cons_of_mem _ ha), if_neg fun heq => hothers ?_⟩
      exact heq ▸ List.mem_map_of_mem (List.mem_map_of_mem ha)
    have hkeyed' : Table.Keyed OutboxCallback.eventId (Attempt.write rows attempt) := by
      rw [hwrite]
      exact hkeyed.modify fun _ _ => hsend.eventId
    have hrest := ih hkeyed' hdistinct.tail hloaded' fun a ha => hsends a (List.mem_cons_of_mem _ ha)
    rw [List.foldl_cons]
    generalize attempts.foldl Attempt.write (Attempt.write rows attempt) = written at hrest ⊢
    rw [hwrite] at hrest
    have hrows := (List.forall₂_and_left rows written).mpr ⟨fun _ => id, List.forall₂_map_left_iff.mp hrest⟩
    refine hrows.imp fun row final ⟨hrow, hfinal⟩ => ?_
    by_cases hid : row.eventId = attempt.loaded.eventId
    · obtain rfl := hkeyed.eq_of_key hrow hmem hid
      have hchanged : attempt.changed.eventId ∉ (attempts.map Attempt.loaded).map OutboxCallback.eventId := by
        rwa [hsend.eventId]
      simp only [↓reduceIte, hchanged] at hfinal
      rw [hfinal, if_pos (by exact List.mem_cons_self)]
      exact hsend
    · simp only [hid, ↓reduceIte] at hfinal
      simpa only [List.map_cons, List.mem_cons, hid, false_or] using hfinal

theorem afterSend_of_heard (settings : OutboxSettings) (callback : OutboxCallback) {answer : SenderAnswer}
    (h : answer.Heard) :
    ∃ changed, afterSend settings callback answer = some changed := by
  cases answer with
  | response | networkError => exact ⟨_, rfl⟩
  | raised | database => cases h

/-- A batch that reaches its commit writes an attempt for each callback that it took. -/
theorem finish_sendNext (s : Sender) (attempts : List Attempt) {answers : List SenderAnswer}
    (hheard : ∀ answer, Q answer → answer.Heard)
    (hlength : answers.length = callbacks.length) (hQ : ∀ answer ∈ answers, Q answer)
    (hpending : ∀ callback ∈ callbacks, callback.status = .pending)
    (hdelivery : ∀ callback ∈ callbacks, (deliveryOf text callback).toOption.isSome = true) :
    ∃ sent : List Attempt, sent.map Attempt.loaded = callbacks ∧
      (∀ attempt ∈ sent, Sends settings Q attempt.loaded attempt.changed) ∧
      ((outboxWorkers text settings).finish (sendNext text s attempts callbacks) (answers ++ [.database true])).outbox =
        (attempts ++ sent).foldl Attempt.write s.outbox := by
  induction callbacks generalizing s attempts answers with
  | nil =>
    rw [List.length_eq_zero_iff.mp hlength]
    exact ⟨[], rfl, List.forall_mem_nil _, by rw [List.append_nil]; rfl⟩
  | cons callback callbacks ih =>
    obtain ⟨answer, answers, rfl⟩ := List.exists_cons_of_length_eq_add_one hlength
    obtain ⟨delivery, hof⟩ := Option.isSome_iff_exists.mp (hdelivery callback List.mem_cons_self)
    have hanswer : Q answer := hQ answer List.mem_cons_self
    obtain ⟨changed, hsend⟩ := afterSend_of_heard settings (countAttempt callback) (hheard answer hanswer)
    simp only [sendNext, toOption_eq_some.mp hof]
    show ∃ sent : List Attempt, _ ∧ _ ∧ ((outboxWorkers text settings).finish
      (resumeSender text settings (.sending attempts callback callbacks) answer _) (answers ++ [.database true])).outbox = _
    simp only [resumeSender, hsend]
    obtain ⟨sent, hloaded, hsends, hwritten⟩ := ih { s with sent := s.sent ++ [delivery] }
      (attempts ++ [⟨callback, changed⟩]) (Nat.succ.inj hlength)
      (fun a ha => hQ a (List.mem_cons_of_mem _ ha)) (fun c hc => hpending c (List.mem_cons_of_mem _ hc))
      fun c hc => hdelivery c (List.mem_cons_of_mem _ hc)
    refine ⟨⟨callback, changed⟩ :: sent, by rw [List.map_cons, hloaded], fun attempt hattempt => ?_, ?_⟩
    · rcases List.mem_cons.mp hattempt with rfl | hattempt
      · exact ⟨hpending callback List.mem_cons_self, answer, hanswer, hsend⟩
      · exact hsends attempt hattempt
    · rw [hwritten, List.append_assoc]
      rfl

theorem status_of_due {now : DateTime} (h : due now callback = true) : callback.status = .pending :=
  of_decide_eq_true (Bool.and_eq_true_iff.mp h).1

theorem due_mono {time now : DateTime} (hle : time ≤ now) (h : due time callback = true) : due now callback = true := by
  obtain ⟨hpending, hnext⟩ := Bool.and_eq_true_iff.mp h
  refine Bool.and_eq_true_iff.mpr ⟨hpending, ?_⟩
  cases hat : callback.nextAttemptAt with
  | none => simp [hat] at hnext
  | some next =>
    rw [hat, Option.any_some, decide_eq_true_eq] at hnext
    rw [Option.any_some, decide_eq_true_eq]
    exact Int.le_trans hnext hle

end Batch

/-! ### Batches in turn -/

section Turns
variable {text : PythonText} {settings : OutboxSettings} {Q : SenderAnswer → Prop} {s : Sender} {time : DateTime}
  {event : OutboxEvent}

theorem enqueue_step (text : PythonText) (settings : OutboxSettings) (queued : OutboxCallback)
    (hkeyed : Table.Keyed OutboxCallback.eventId s.outbox) :
    ∃ s' added, outboxStep text settings s (.enqueue queued) = .ok s' ∧ added.Sublist [queued] ∧
      s'.outbox = s.outbox ++ added ∧ s'.sent = s.sent ∧ Table.Keyed OutboxCallback.eventId s'.outbox := by
  simp only [outboxStep, startSender]
  split
  · exact ⟨_, [], rfl, List.nil_sublist _, (List.append_nil _).symm, rfl, hkeyed⟩
  · next hnew =>
    exact ⟨_, [queued], rfl, .refl _, rfl, rfl, hkeyed.append (Table.find_eq_none.mp (Option.not_isSome_iff_eq_none.mp hnew))⟩

theorem batch_served {now : DateTime} {answers : List SenderAnswer} (hheard : ∀ answer, Q answer → answer.Heard)
    (hkeyed : Table.Keyed OutboxCallback.eventId s.outbox) (hcomplete : Completes text Q time s (.batch now answers)) :
    ∃ s', outboxStep text settings s (.batch now answers) = .ok s' ∧
      Served OutboxCallback.eventId (Sends settings Q) (s.taken now) s.outbox s'.outbox ∧
      Table.Keyed OutboxCallback.eventId s'.outbox := by
  obtain ⟨-, hlength, hQ, hdelivery⟩ := hcomplete
  refine ⟨_, rfl, ?_⟩
  have hpending : ∀ callback ∈ s.taken now, callback.status = .pending := fun callback hcallback =>
    status_of_due (mem_of_mem_first hcallback).2
  obtain ⟨sent, hloaded, hsends, hwritten⟩ := finish_sendNext s [] hheard hlength hQ hpending hdelivery
  have hstart : ((outboxWorkers text settings).finish (startSender text (.sendPendingCallbacks now) s)
      (answers ++ [.database true])).outbox = sent.foldl Attempt.write s.outbox := by
    refine Eq.trans ?_ hwritten
    simp only [startSender]
    split
    · next hnone =>
      have htaken : s.taken now = [] := hnone
      rw [htaken] at hlength ⊢
      rw [List.length_eq_zero_iff.mp hlength]
      rfl
    · rfl
  rw [hstart, ← hloaded]
  refine ⟨served_writeAll hkeyed (hloaded ▸ keyed_first hkeyed) (fun attempt hattempt => ?_) hsends, keyed_writeAll hkeyed⟩
  have hmem : attempt.loaded ∈ s.taken now := hloaded ▸ List.mem_map_of_mem hattempt
  exact (mem_of_mem_first hmem).1

theorem attemptsLeft_lt (h : Sends settings Q callback changed) :
    attemptsLeft settings changed < attemptsLeft settings callback := by
  have hattempted := h.attempted
  have hcount := h.attemptCount
  unfold attemptsLeft
  rw [if_pos h.1]
  split
  · next hpending =>
    have hretried := hattempted.retried hpending
    omega
  · omega

/-- A step serves the callbacks that are due from `time` on, or queues one. -/
def ServesDue (text : PythonText) (settings : OutboxSettings) (Q : SenderAnswer → Prop) (time : DateTime) :
    Sender → OutboxEvent → Prop :=
  Serves (outboxStep text settings) Sender.outbox OutboxCallback.eventId OutboxCallback.createdAt OutboxEvent.isBatch
    OutboxEvent.queued (fun callback => due time callback = true) (Sends settings Q) 50

theorem step_serves (hheard : ∀ answer, Q answer → answer.Heard) {s' : Sender}
    (hkeyed : Table.Keyed OutboxCallback.eventId s.outbox) (hcomplete : Completes text Q time s event)
    (hstep : outboxStep text settings s event = .ok s') :
    Table.Keyed OutboxCallback.eventId s'.outbox ∧
      ServesDue text settings Q time s event := by
  unfold ServesDue Serves
  rw [next_of_ok hstep]
  cases event with
  | enqueue callback =>
    obtain ⟨t, added, ht, hadded, houtbox, -, hkeyed'⟩ := enqueue_step text settings callback hkeyed
    obtain rfl := Except.ok.inj (hstep.symm.trans ht)
    rw [if_neg (by exact Bool.false_ne_true)]
    exact ⟨hkeyed', added, hadded, houtbox⟩
  | batch now answers =>
    obtain ⟨t, ht, hserved, hkeyed'⟩ := batch_served hheard hkeyed hcomplete
    obtain rfl := Except.ok.inj (hstep.symm.trans ht)
    rw [if_pos (by rfl)]
    exact ⟨hkeyed', due now, fun callback hdue => due_mono hcomplete.1 hdue, hkeyed, hserved⟩

theorem along_serves (hheard : ∀ answer, Q answer → answer.Heard) (hkeyed : Table.Keyed OutboxCallback.eventId s.outbox)
    {events : List OutboxEvent} (hcomplete : Along (outboxStep text settings) (Completes text Q time) s events) :
    Along (outboxStep text settings) (ServesDue text settings Q time) s events := by
  refine along_of_along (I := fun s => Table.Keyed OutboxCallback.eventId s.outbox)
    (fun s event s' hkeyed hevent hstep => (step_serves hheard hkeyed hevent hstep).1) (fun s event hkeyed hevent => ?_)
    hkeyed hcomplete
  cases event with
  | enqueue callback => exact (step_serves hheard hkeyed hevent rfl).2
  | batch now answers => exact (step_serves hheard hkeyed hevent rfl).2

end Turns

/-- A callback that is due is attempted in a run with a batch for each 50 attempts that the callbacks created no later have
    left, those that are queued in the run included, whatever the API answers. -/
theorem due_callback_attempted (text : PythonText) (settings : OutboxSettings) (s : Sender)
    (hkeyed : Table.Keyed OutboxCallback.eventId s.outbox) (callback : OutboxCallback) (hmem : callback ∈ s.outbox)
    (time : DateTime) (hdue : due time callback = true) (events : List OutboxEvent)
    (hcomplete : Along (outboxStep text settings) (Completes text SenderAnswer.Heard time) s events)
    (hbatches : (((s.outbox ++ events.flatMap OutboxEvent.queued).filter callback.before).map
      (attemptsLeft settings)).sum < 50 * events.countP OutboxEvent.isBatch) :
    ∃ row ∈ (run (outboxStep text settings) s events).outbox,
      row.eventId = callback.eventId ∧ callback.attemptCount < row.attemptCount := by
  refine served_of_rounds (w := attemptsLeft settings) (fun _ _ => attemptsLeft_lt) (fun _ _ => Sends.eventId)
    (fun _ _ => Sends.createdAt) ?_ ?_ hdue (along_serves (fun _ h => h) hkeyed hcomplete) hmem hbatches
  · intro row hsends
    exact ⟨hsends.eventId, by rw [hsends.attemptCount]; omega⟩
  · rintro row row' ⟨hid, hless⟩ hsends
    exact ⟨hsends.eventId.trans hid, by rw [hsends.attemptCount]; omega⟩

theorem heard_of_taken (answer : SenderAnswer) (h : answer.Taken) : answer.Heard := by
  cases answer with
  | response => trivial
  | networkError | raised | database => cases h

theorem Sends.sent {settings : OutboxSettings} {callback changed : OutboxCallback}
    (h : Sends settings SenderAnswer.Taken callback changed) : changed.status = .sent := by
  obtain ⟨-, answer, htaken, hsend⟩ := h
  cases answer with
  | response statusCode text now =>
    have hcode : 200 ≤ statusCode ∧ statusCode < 300 := htaken
    cases hsend
    rw [if_pos hcode]
  | networkError | raised | database => cases htaken

theorem sum_pending (callbacks : List OutboxCallback) :
    (callbacks.map fun c => if c.status = .pending then 1 else 0).sum = callbacks.countP (fun c => c.status = .pending) := by
  induction callbacks with
  | nil => rfl
  | cons callback callbacks ih =>
    rw [List.map_cons, List.sum_cons, ih, List.countP_cons, Nat.add_comm]
    simp only [decide_eq_true_eq]

/-- Where the API takes every request, a callback that is due is sent in a run with a batch for each 50 callbacks that are
    pending and were created no later, those that are queued in the run included. -/
theorem due_callback_sent (text : PythonText) (settings : OutboxSettings) (s : Sender)
    (hkeyed : Table.Keyed OutboxCallback.eventId s.outbox) (callback : OutboxCallback) (hmem : callback ∈ s.outbox)
    (time : DateTime) (hdue : due time callback = true) (events : List OutboxEvent)
    (hcomplete : Along (outboxStep text settings) (Completes text SenderAnswer.Taken time) s events)
    (hbatches : ((s.outbox ++ events.flatMap OutboxEvent.queued).filter callback.before).countP
      (fun c => c.status = .pending) < 50 * events.countP OutboxEvent.isBatch) :
    ∃ row ∈ (run (outboxStep text settings) s events).outbox, row.eventId = callback.eventId ∧ row.status = .sent := by
  refine served_of_rounds (R := Sends settings SenderAnswer.Taken) (w := fun c => if c.status = .pending then 1 else 0)
    (fun c c' h => ?_) (fun _ _ => Sends.eventId) (fun _ _ => Sends.createdAt) ?_ ?_ hdue
    (along_serves heard_of_taken hkeyed hcomplete) hmem (lt_of_eq_of_lt (sum_pending _) hbatches)
  · rw [if_pos h.1, if_neg (by rw [h.sent]; decide)]
    exact Nat.zero_lt_one
  · exact fun row hsends => ⟨hsends.eventId, hsends.sent⟩
  · rintro row row' ⟨hid, -⟩ hsends
    exact ⟨hsends.eventId.trans hid, hsends.sent⟩

/-! ### A request that raises -/

section Raising
variable {text : PythonText} {settings : OutboxSettings} {s : Sender} {raising : OutboxCallback}
  {before after : List OutboxCallback} {time : DateTime}

/-- A batch that a request ends has sent this one and those before it, and writes nothing. -/
theorem finish_raised (settings : OutboxSettings) (s : Sender) (attempts : List Attempt)
    (after : List OutboxCallback) {heard : List SenderAnswer} (hlength : heard.length = before.length)
    (hheard : ∀ answer ∈ heard, answer.Heard)
    (hdelivery : ∀ callback ∈ before ++ [raising], (deliveryOf text callback).toOption.isSome = true) :
    ∃ deliveries : List Delivery, deliveries.map Delivery.eventId = (before ++ [raising]).map OutboxCallback.eventId ∧
      (outboxWorkers text settings).finish (sendNext text s attempts (before ++ raising :: after))
        (heard ++ [.raised] ++ [.database true]) = { s with sent := s.sent ++ deliveries } := by
  induction before generalizing s attempts heard with
  | nil =>
    rw [List.length_eq_zero_iff.mp hlength]
    obtain ⟨delivery, hof⟩ := Option.isSome_iff_exists.mp (hdelivery raising List.mem_cons_self)
    have hof := toOption_eq_some.mp hof
    refine ⟨[delivery], congrArg (fun id => [id]) (eventId_of_deliveryOf hof), ?_⟩
    simp only [List.nil_append, sendNext, hof]
    rfl
  | cons callback before ih =>
    obtain ⟨answer, heard, rfl⟩ := List.exists_cons_of_length_eq_add_one hlength
    obtain ⟨delivery, hof⟩ := Option.isSome_iff_exists.mp (hdelivery callback List.mem_cons_self)
    have hof := toOption_eq_some.mp hof
    obtain ⟨changed, hsend⟩ := afterSend_of_heard settings (countAttempt callback) (hheard answer List.mem_cons_self)
    obtain ⟨deliveries, hids, hfinish⟩ := ih { s with sent := s.sent ++ [delivery] }
      (attempts ++ [⟨callback, changed⟩]) (Nat.succ.inj hlength)
      (fun a ha => hheard a (List.mem_cons_of_mem _ ha)) fun c hc => hdelivery c (List.mem_cons_of_mem _ hc)
    refine ⟨delivery :: deliveries, ?_, ?_⟩
    · rw [List.map_cons, hids, eventId_of_deliveryOf hof]
      rfl
    · simp only [List.cons_append, sendNext, hof]
      show (outboxWorkers text settings).finish (resumeSender text settings
        (.sending attempts callback (before ++ raising :: after)) answer _) (heard ++ [.raised] ++ [.database true]) = _
      simp only [resumeSender, hsend]
      rw [hfinish, List.append_assoc]
      rfl

/-- A callback among some with different events is one of them. -/
theorem countP_eventId {callbacks : List OutboxCallback} {callback : OutboxCallback}
    (hkeyed : Table.Keyed OutboxCallback.eventId callbacks) (hmem : callback ∈ callbacks) :
    callbacks.countP (fun c => c.eventId = callback.eventId) = 1 :=
  Nat.le_antisymm hkeyed.countP_le_one (List.countP_pos_iff.mpr ⟨callback, hmem, decide_eq_true rfl⟩)

/-- A batch that a request ends sends a callback that is due and was created before once more. -/
theorem raising_batch (settings : OutboxSettings) {now : DateTime} {answers : List SenderAnswer} {callback : OutboxCallback}
    (hkeyed : Table.Keyed OutboxCallback.eventId s.outbox) (hcallback : callback ∈ s.outbox)
    (hcreated : callback.createdAt < raising.createdAt) (hdue : due time callback = true)
    (hends : EndsAt text raising time s (.batch now answers)) :
    ∃ s', outboxStep text settings s (.batch now answers) = .ok s' ∧ s'.outbox = s.outbox ∧
      s'.sent.countP (fun d => d.eventId = callback.eventId) =
        s.sent.countP (fun d => d.eventId = callback.eventId) + 1 := by
  obtain ⟨hle, before, after, heard, htaken, rfl, hlength, hheard, hdelivery⟩ := hends
  obtain ⟨deliveries, hids, hfinish⟩ := finish_raised settings s [] after hlength hheard hdelivery
  have hstart : startSender text (.sendPendingCallbacks now) s = sendNext text s [] (before ++ raising :: after) := by
    unfold Sender.taken at htaken
    simp only [startSender, htaken]
    cases before <;> rfl
  refine ⟨_, rfl, ?_⟩
  rw [hstart, hfinish]
  refine ⟨rfl, ?_⟩
  have hmem : callback ∈ before ++ [raising] :=
    List.mem_append_left _ (before_of_first hcallback (due_mono hle hdue) hcreated htaken)
  have hsublist : (before ++ [raising]).Sublist (s.taken now) := by
    rw [htaken]
    exact (List.Sublist.refl before).append (List.Sublist.cons_cons raising (List.nil_sublist after))
  have hcount : deliveries.countP (fun d => d.eventId = callback.eventId) = 1 := by
    rw [← countP_eventId ((keyed_first hkeyed).sublist hsublist) hmem]
    have hmap := congrArg (List.countP fun id => decide (id = callback.eventId)) hids
    rwa [List.countP_map, List.countP_map] at hmap
  rw [List.countP_append, hcount]

end Raising

/-- While the request of one callback raises, nothing is written, and each batch sends every callback that is due and was
    created before it once more. -/
theorem raising_callback_blocks (text : PythonText) (settings : OutboxSettings) (s : Sender)
    (hkeyed : Table.Keyed OutboxCallback.eventId s.outbox) (raising callback : OutboxCallback)
    (hcallback : callback ∈ s.outbox) (hcreated : callback.createdAt < raising.createdAt) (time : DateTime)
    (hdue : due time callback = true) (events : List OutboxEvent)
    (hends : Along (outboxStep text settings) (EndsAt text raising time) s events) :
    s.outbox <+: (run (outboxStep text settings) s events).outbox ∧
      (run (outboxStep text settings) s events).sent.countP (fun d => d.eventId = callback.eventId) =
        s.sent.countP (fun d => d.eventId = callback.eventId) + events.countP OutboxEvent.isBatch := by
  induction events generalizing s with
  | nil => exact ⟨List.prefix_rfl, rfl⟩
  | cons event events ih =>
    cases event with
    | enqueue queued =>
      obtain ⟨s', added, hstep, -, houtbox', hsent, hkeyed'⟩ := enqueue_step text settings queued hkeyed
      have hcallback' : callback ∈ s'.outbox := houtbox' ▸ List.mem_append_left added hcallback
      obtain ⟨hstays, hcount⟩ := ih s' hkeyed' hcallback' (next_of_ok hstep ▸ hends.2)
      rw [run_cons_of_ok hstep, List.countP_cons_of_neg (by exact Bool.false_ne_true), hcount, hsent]
      exact ⟨(houtbox' ▸ List.prefix_append _ _).trans hstays, rfl⟩
    | batch now answers =>
      obtain ⟨s', hstep, houtbox', hsent⟩ := raising_batch settings hkeyed hcallback hcreated hdue hends.1
      obtain ⟨hstays, hcount⟩ := ih s' (houtbox' ▸ hkeyed) (houtbox' ▸ hcallback) (next_of_ok hstep ▸ hends.2)
      rw [run_cons_of_ok hstep, List.countP_cons_of_pos (by rfl), hcount, hsent]
      exact ⟨houtbox' ▸ hstays, by omega⟩

section Examples

instance : DecidablePred SenderAnswer.Heard
  | .response .. | .networkError .. => instDecidableTrue
  | .raised | .database _ => instDecidableFalse

instance : DecidablePred SenderAnswer.Taken
  | .response statusCode .. => inferInstanceAs (Decidable (200 ≤ statusCode ∧ statusCode < 300))
  | .networkError .. | .raised | .database _ => instDecidableFalse

instance (text : PythonText) (Q : SenderAnswer → Prop) [DecidablePred Q] (time : DateTime) (s : Sender) :
    (event : OutboxEvent) → Decidable (Completes text Q time s event)
  | .enqueue _ => instDecidableTrue
  | .batch now answers => inferInstanceAs (Decidable (time ≤ now ∧ answers.length = (s.taken now).length ∧
      (∀ answer ∈ answers, Q answer) ∧ ∀ callback ∈ s.taken now, (deliveryOf text callback).toOption.isSome = true))

def plainText : PythonText := ⟨id, fun _ => "\x7b\x7d"⟩

def threeAttempts : OutboxSettings := ⟨3, 30⟩

def queuedCallback (eventId : String) (createdAt : DateTime) : OutboxCallback :=
  ⟨eventId, none, "/pix/webhook", .object [], .pending, 0, some 0, none, createdAt⟩

def twoQueued : Sender := ⟨[queuedCallback "first" 1, queuedCallback "second" 2], []⟩

theorem twoQueued_keyed : Table.Keyed OutboxCallback.eventId twoQueued.outbox := by
  unfold Table.Keyed
  decide

/-- A third callback, created before the two, is queued before the API answers, and refuses them. -/
theorem due_callback_attempted_refused :
    ∃ row ∈ (run (outboxStep plainText threeAttempts) twoQueued
        [.enqueue (queuedCallback "third" 0), .batch 0 [.response 500 "" 0, .networkError "timeout" 0,
          .response 200 "" 0]]).outbox,
      row.eventId = "second" ∧ 0 < row.attemptCount :=
  due_callback_attempted plainText threeAttempts twoQueued twoQueued_keyed (queuedCallback "second" 2)
    (List.mem_cons_of_mem _ List.mem_cons_self) 0 (by decide) _ (by decide +kernel) (by decide +kernel)

theorem due_callback_sent_taken :
    ∃ row ∈ (run (outboxStep plainText threeAttempts) twoQueued
        [.batch 0 [.response 200 "" 0, .response 201 "" 0]]).outbox, row.eventId = "second" ∧ row.status = .sent :=
  due_callback_sent plainText threeAttempts twoQueued twoQueued_keyed (queuedCallback "second" 2)
    (List.mem_cons_of_mem _ List.mem_cons_self) 0 (by decide) _ (by decide +kernel) (by decide +kernel)

/-- The API takes the first callback in both batches, and the request of the second one breaks off. -/
theorem raising_callback_blocks_twice :
    let s := run (outboxStep plainText threeAttempts) twoQueued
      [.batch 0 [.response 200 "" 0, .raised], .batch 5 [.response 200 "" 5, .raised]]
    twoQueued.outbox <+: s.outbox ∧ s.sent.countP (fun d => d.eventId = "first") = 2 := by
  refine raising_callback_blocks plainText threeAttempts twoQueued twoQueued_keyed (queuedCallback "second" 2)
    (queuedCallback "first" 1) List.mem_cons_self (by decide) 0 (by decide) _ ?_
  have hends (now : DateTime) (hnow : 0 ≤ now) (htaken : twoQueued.taken now = twoQueued.outbox) :
      EndsAt plainText (queuedCallback "second" 2) 0 twoQueued (.batch now [.response 200 "" now, .raised]) :=
    ⟨hnow, [queuedCallback "first" 1], [], [.response 200 "" now], htaken, rfl, rfl, by simp [SenderAnswer.Heard],
      by decide +kernel⟩
  exact ⟨hends 0 (by decide) rfl, hends 5 (by decide) rfl, trivial⟩

end Examples

end CredBridge.PixService
