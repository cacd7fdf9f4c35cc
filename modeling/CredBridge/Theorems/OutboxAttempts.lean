import CredBridge.PixService.Service

/-! # Bounded and isolated attempts

A batch of the worker is committed as a whole. As long as batches run one at a time, and each of them goes on to its
commit, the rows of the outbox tell how often their callbacks were sent. The invariant: with what the waiting batch has
still to write, each row counts the requests for it, and one request more is under way for the callback that waits for
its answer. -/

namespace CredBridge.PixService
open Concurrent Machine Result

def Sender.sends (eventId : String) (s : Sender) : Nat := s.sent.countP fun delivery => decide (delivery.eventId = eventId)

def ServiceCall.batch? : ServiceCall → Option Batch
  | .batch waiting => some waiting
  | _ => none

def batches (c : Config Service ServiceCall) : List Batch := c.calls.filterMap ServiceCall.batch?

/-- All the callbacks that a batch took. -/
def Batch.taken (batch : Batch) : List OutboxCallback := batch.attempts.map Attempt.loaded ++ batch.callbacks

/-- The event of the callback that waits for its answer. -/
def Batch.current : Batch → Option String
  | .sending _ callback _ => some callback.eventId
  | .commit _ => none

/-- No callback was sent more often than it may be; between batches, each one that was answered with 2xx is recorded as
    sent. -/
structure Bounded (settings : OutboxSettings) (c : Config Service ServiceCall) : Prop where
  sends : ∀ row ∈ c.shared.outbox, c.shared.sender.sends row.eventId ≤ settings.callbackMaxAttempts
  recorded : batches c = [] → ∀ eventId ∈ c.shared.acknowledged, ∃ row ∈ c.shared.outbox,
    row.eventId = eventId ∧ row.status = .sent

/-- A callback that is sent or failed stays so, one that was answered with 2xx is not sent again, and a batch goes on to
    all its callbacks and keeps what became of each, up to the commit, which records all of it. -/
structure Isolated (c c' : Config Service ServiceCall) : Prop where
  final : ∀ row ∈ c.shared.outbox, row.status ≠ .pending → ∃ row' ∈ c'.shared.outbox,
    row'.eventId = row.eventId ∧ row'.status = row.status
  notAgain : ∀ eventId ∈ c.shared.acknowledged, c'.shared.sender.sends eventId = c.shared.sender.sends eventId
  goesOn : ∀ batch ∈ batches c,
    (∃ batch' ∈ batches c', batch.attempts <+: batch'.attempts ∧ batch'.taken = batch.taken) ∨
      batch.callbacks = [] ∧ ∀ attempt ∈ batch.attempts, attempt.changed ∈ c'.shared.outbox

/-- An answer that does not end a batch before its commit, and a commit that the database takes. -/
def Batch.GoesOn : Batch → SenderAnswer → Prop
  | .sending .., .response .. | .sending .., .networkError .. => True
  | .sending .., .raised | .sending .., .database _ => False
  | .commit _, .database reached => reached = true
  | .commit _, _ => True

/-- One batch at a time, none of which ends before its commit. -/
def OneBatchAtATime (c : Config Service ServiceCall) : Op ServiceRequest ServiceAnswer → Prop
  | .start (.sendPendingCallbacks _) => batches c = []
  | .start _ => True
  | .resume i (.sender answer) => ∀ call ∈ c.calls[i]?, ∀ batch ∈ call.batch?, batch.GoesOn answer
  | .resume _ (.update _) => True
  | .crash i => ∀ call ∈ c.calls[i]?, call.batch? = none

/-! ### The count of the requests -/

/-- The rows, with what a batch has still to write. -/
def Sender.ahead (s : Sender) (attempts : List Attempt) : List OutboxCallback := attempts.foldl Attempt.write s.outbox

/-- The rows of the outbox, the attempts that are still to be written, the callbacks that are still to be answered, and
    the event of the one that was sent. -/
structure Balanced (text : PythonText) (settings : OutboxSettings) (s : Sender) (acknowledged : List String)
    (attempts : List Attempt) (callbacks : List OutboxCallback) (current : Option String) : Prop where
  keyed : Table.Keyed OutboxCallback.eventId s.outbox
  sendable : ∀ row ∈ s.outbox, ∃ delivery, deliveryOf text row = .ok delivery
  known : ∀ delivery ∈ s.sent, delivery.eventId ∈ s.outbox.map OutboxCallback.eventId
  loaded : ∀ attempt ∈ attempts, attempt.loaded.eventId ∈ s.outbox.map OutboxCallback.eventId
  changed : ∀ attempt ∈ attempts, attempt.changed ∈ s.ahead attempts ∧ attempt.changed.eventId = attempt.loaded.eventId
  distinct : Table.Keyed OutboxCallback.eventId (attempts.map Attempt.loaded ++ callbacks)
  waiting : ∀ callback ∈ callbacks, callback ∈ s.outbox ∧ callback ∈ s.ahead attempts ∧ callback.status = .pending
  sending : ∀ eventId ∈ current, callbacks.head?.map OutboxCallback.eventId = some eventId
  counted : ∀ row ∈ s.ahead attempts, s.sends row.eventId = row.attemptCount + if current = some row.eventId then 1 else 0
  bounded : ∀ row ∈ s.ahead attempts, row.attemptCount ≤ settings.callbackMaxAttempts ∧
    (row.status = .pending → row.attemptCount < settings.callbackMaxAttempts)
  final : ∀ row ∈ s.outbox, row.status ≠ .pending → row ∈ s.ahead attempts
  answered : ∀ eventId ∈ acknowledged, ∃ row ∈ s.ahead attempts, row.eventId = eventId ∧ row.status = .sent

section Balanced
variable {text : PythonText} {settings : OutboxSettings} {s : Sender} {acknowledged : List String}
  {attempts : List Attempt} {callback changed : OutboxCallback} {callbacks : List OutboxCallback}
  {current : Option String} {delivery : Delivery}

theorem sends_append (eventId : String) :
    Sender.sends eventId { s with sent := s.sent ++ [delivery] } =
      s.sends eventId + if delivery.eventId = eventId then 1 else 0 := by
  simp [Sender.sends, List.countP_append, List.countP_singleton]

theorem map_eventId_ahead : (s.ahead attempts).map OutboxCallback.eventId = s.outbox.map OutboxCallback.eventId :=
  map_eventId_writeAll attempts s.outbox

theorem Balanced.keyed_ahead (h : Balanced text settings s acknowledged attempts callbacks current) :
    Table.Keyed OutboxCallback.eventId (s.ahead attempts) :=
  keyed_writeAll h.keyed

/-- What is in no row was not sent, and is not waited for. -/
theorem Balanced.unsent (h : Balanced text settings s acknowledged attempts callbacks current) {eventId : String}
    (hnew : eventId ∉ s.outbox.map OutboxCallback.eventId) : s.sends eventId = 0 ∧ current ≠ some eventId := by
  constructor
  · refine List.countP_eq_zero.mpr fun delivery hdelivery => ?_
    simpa using fun heq : delivery.eventId = eventId => hnew (heq ▸ h.known delivery hdelivery)
  · rintro rfl
    obtain ⟨waiting, hwaiting, hid⟩ := Option.map_eq_some_iff.mp (h.sending eventId rfl)
    exact hnew (hid ▸ List.mem_map_of_mem (h.waiting waiting (List.mem_of_mem_head? hwaiting)).1)

theorem Balanced.ahead_append (h : Balanced text settings s acknowledged attempts callbacks current)
    (hnew : callback.eventId ∉ s.outbox.map OutboxCallback.eventId) :
    Sender.ahead { s with outbox := s.outbox ++ [callback] } attempts = s.ahead attempts ++ [callback] :=
  writeAll_append fun attempt hattempt heq => hnew (heq ▸ h.loaded attempt hattempt)

/-- A callback that joins the outbox, pending and never sent. -/
theorem Balanced.enqueue (h : Balanced text settings s acknowledged attempts callbacks current)
    (hmax : 0 < settings.callbackMaxAttempts) (hnew : callback.eventId ∉ s.outbox.map OutboxCallback.eventId)
    (hpending : callback.status = .pending) (hcount : callback.attemptCount = 0)
    (hsendable : ∃ delivery, deliveryOf text callback = .ok delivery) :
    Balanced text settings { s with outbox := s.outbox ++ [callback] } acknowledged attempts callbacks current := by
  have hahead := h.ahead_append hnew
  obtain ⟨hunsent, hcurrent⟩ := h.unsent hnew
  have hmap : s.outbox.map OutboxCallback.eventId ⊆ (s.outbox ++ [callback]).map OutboxCallback.eventId := by
    rw [List.map_append]
    exact List.subset_append_left _ _
  constructor
  case keyed => exact h.keyed.append hnew
  case sendable =>
    intro row hrow
    rcases List.mem_append.mp hrow with hrow | hrow
    · exact h.sendable row hrow
    · rwa [List.mem_singleton.mp hrow]
  case known => exact fun delivery hdelivery => hmap (h.known delivery hdelivery)
  case loaded => exact fun attempt hattempt => hmap (h.loaded attempt hattempt)
  case changed =>
    intro attempt hattempt
    obtain ⟨hmem, hid⟩ := h.changed attempt hattempt
    rw [hahead]
    exact ⟨List.mem_append_left _ hmem, hid⟩
  case distinct => exact h.distinct
  case waiting =>
    intro waiting hwaiting
    obtain ⟨hmem, hmem', hstatus⟩ := h.waiting waiting hwaiting
    rw [hahead]
    exact ⟨List.mem_append_left _ hmem, List.mem_append_left _ hmem', hstatus⟩
  case sending => exact h.sending
  case counted =>
    intro row hrow
    rw [hahead] at hrow
    rcases List.mem_append.mp hrow with hrow | hrow
    · exact h.counted row hrow
    · rw [List.mem_singleton.mp hrow, hcount, if_neg hcurrent]
      exact hunsent
  case bounded =>
    intro row hrow
    rw [hahead] at hrow
    rcases List.mem_append.mp hrow with hrow | hrow
    · exact h.bounded row hrow
    · rw [List.mem_singleton.mp hrow, hcount]
      exact ⟨Nat.zero_le _, fun _ => hmax⟩
  case final =>
    intro row hrow hstatus
    rw [hahead]
    rcases List.mem_append.mp hrow with hrow | hrow
    · exact List.mem_append_left _ (h.final row hrow hstatus)
    · rw [List.mem_singleton.mp hrow] at hstatus
      exact absurd hpending hstatus
  case answered =>
    intro eventId hid
    obtain ⟨row, hrow, hrest⟩ := h.answered eventId hid
    rw [hahead]
    exact ⟨row, List.mem_append_left _ hrow, hrest⟩

/-- A batch takes rows that are due. -/
theorem Balanced.select (h : Balanced text settings s acknowledged [] [] none) (now : DateTime) :
    Balanced text settings s acknowledged [] (dueCallbacks now s.outbox) none where
  keyed := h.keyed
  sendable := h.sendable
  known := h.known
  loaded := h.loaded
  changed := h.changed
  distinct := Rounds.keyed_first h.keyed
  waiting waiting hwaiting := by
    obtain ⟨hmem, hdue⟩ := Rounds.mem_of_mem_first hwaiting
    exact ⟨hmem, hmem, of_decide_eq_true (Bool.and_eq_true_iff.mp hdue).1⟩
  sending := nofun
  counted := h.counted
  bounded := h.bounded
  final := h.final
  answered := h.answered

theorem Balanced.send (h : Balanced text settings s acknowledged attempts (callback :: callbacks) none)
    (hof : deliveryOf text callback = .ok delivery) :
    Balanced text settings { s with sent := s.sent ++ [delivery] } acknowledged attempts (callback :: callbacks)
      (some callback.eventId) where
  keyed := h.keyed
  sendable := h.sendable
  known d hd := by
    rcases List.mem_append.mp hd with hd | hd
    · exact h.known d hd
    · rw [List.mem_singleton.mp hd, eventId_of_deliveryOf hof]
      exact List.mem_map_of_mem (h.waiting callback List.mem_cons_self).1
  loaded := h.loaded
  changed := h.changed
  distinct := h.distinct
  waiting := h.waiting
  sending eventId hid := by
    cases hid
    rfl
  counted row hrow := by
    rw [sends_append, eventId_of_deliveryOf hof, h.counted row hrow]
    simp
  bounded := h.bounded
  final := h.final
  answered := h.answered

/-- The waiting callbacks are of other events than the attempts, and than each other. -/
theorem Balanced.waiting_ne (h : Balanced text settings s acknowledged attempts (callback :: callbacks) current) :
    (∀ attempt ∈ attempts, attempt.loaded.eventId ≠ callback.eventId) ∧
      ∀ other ∈ callbacks, other.eventId ≠ callback.eventId := by
  have hnodup := h.distinct
  unfold Table.Keyed at hnodup
  rw [List.map_append, List.map_cons] at hnodup
  obtain ⟨-, htail, hdisjoint⟩ := List.nodup_append.mp hnodup
  refine ⟨fun attempt hattempt => ?_, fun other hother heq => ?_⟩
  · exact hdisjoint _ (List.mem_map_of_mem (List.mem_map_of_mem hattempt)) _ List.mem_cons_self
  · exact (List.nodup_cons.mp htail).1 (heq ▸ List.mem_map_of_mem hother)

/-- The attempt that was answered takes the place of its row. -/
theorem Balanced.mem_ahead_answer (h : Balanced text settings s acknowledged attempts (callback :: callbacks) current)
    (hattempted : Attempted settings callback changed) {row : OutboxCallback} :
    row ∈ s.ahead (attempts ++ [⟨callback, changed⟩]) ↔
      row = changed ∨ row ∈ s.ahead attempts ∧ row.eventId ≠ callback.eventId := by
  obtain ⟨-, hahead, -⟩ := h.waiting callback List.mem_cons_self
  have hwrite : s.ahead (attempts ++ [⟨callback, changed⟩]) =
      Table.modify OutboxCallback.eventId callback.eventId (fun _ => changed) (s.ahead attempts) := by
    unfold Sender.ahead
    rw [List.foldl_append]
    exact write_loaded h.keyed_ahead hahead hattempted
  rw [hwrite]
  exact Table.mem_modify_const (List.mem_map_of_mem hahead)

theorem Balanced.answer (h : Balanced text settings s acknowledged attempts (callback :: callbacks)
      (some callback.eventId)) (hattempted : Attempted settings callback changed) {added : Option String}
    (hadded : ∀ eventId ∈ added, eventId = callback.eventId ∧ changed.status = .sent) :
    Balanced text settings s (acknowledged ++ added.toList) (attempts ++ [⟨callback, changed⟩]) callbacks none := by
  obtain ⟨hmem, hahead, hpending⟩ := h.waiting callback List.mem_cons_self
  obtain ⟨hattempts, hothers⟩ := h.waiting_ne
  have hid : changed.eventId = callback.eventId := by rw [hattempted.row]
  have hcount : changed.attemptCount = callback.attemptCount + 1 := by rw [hattempted.row]
  have hiff : ∀ {row}, row ∈ s.ahead (attempts ++ [⟨callback, changed⟩]) ↔ _ := h.mem_ahead_answer hattempted
  constructor
  case keyed => exact h.keyed
  case sendable => exact h.sendable
  case known => exact h.known
  case loaded =>
    intro attempt hattempt
    rcases List.mem_append.mp hattempt with hattempt | hattempt
    · exact h.loaded attempt hattempt
    · rw [List.mem_singleton.mp hattempt]
      exact List.mem_map_of_mem hmem
  case changed =>
    intro attempt hattempt
    rcases List.mem_append.mp hattempt with hattempt | hattempt
    · obtain ⟨hchanged, hsame⟩ := h.changed attempt hattempt
      exact ⟨hiff.mpr (.inr ⟨hchanged, hsame ▸ hattempts attempt hattempt⟩), hsame⟩
    · rw [List.mem_singleton.mp hattempt]
      exact ⟨hiff.mpr (.inl rfl), hid⟩
  case distinct => simpa using h.distinct
  case waiting =>
    intro other hother
    obtain ⟨hmem, hother', hstatus⟩ := h.waiting other (List.mem_cons_of_mem _ hother)
    exact ⟨hmem, hiff.mpr (.inr ⟨hother', hothers other hother⟩), hstatus⟩
  case sending => exact nofun
  case counted =>
    intro row hrow
    rcases hiff.mp hrow with rfl | ⟨hrow, hne⟩
    · rw [hid, h.counted callback hahead, hcount]
      simp
    · rw [h.counted row hrow, if_neg fun heq => hne (Option.some.inj heq).symm]
      rfl
  case bounded =>
    intro row hrow
    rcases hiff.mp hrow with rfl | ⟨hrow, -⟩
    · rw [hcount]
      exact ⟨(h.bounded callback hahead).2 hpending, fun hstatus => hcount ▸ hattempted.retried hstatus⟩
    · exact h.bounded row hrow
  case final =>
    intro row hrow hstatus
    refine hiff.mpr (.inr ⟨h.final row hrow hstatus, fun heq => ?_⟩)
    obtain rfl := h.keyed.eq_of_key hrow hmem heq
    exact hstatus hpending
  case answered =>
    intro eventId hack
    rcases List.mem_append.mp hack with hack | hack
    · obtain ⟨row, hrow, hrowId, hsent⟩ := h.answered eventId hack
      refine ⟨row, hiff.mpr (.inr ⟨hrow, fun heq => ?_⟩), hrowId, hsent⟩
      obtain rfl := h.keyed_ahead.eq_of_key hrow hahead heq
      exact absurd (hpending.symm.trans hsent) nofun
    · obtain ⟨rfl, hsent⟩ := hadded eventId (Option.mem_toList.mp hack)
      exact ⟨changed, hiff.mpr (.inl rfl), hid, hsent⟩

theorem Balanced.commit (h : Balanced text settings s acknowledged attempts [] none) :
    Balanced text settings { s with outbox := s.ahead attempts } acknowledged [] [] none where
  keyed := h.keyed_ahead
  sendable row hrow := by
    obtain ⟨stored, hstored, hid, hpayload⟩ := mem_writeAll hrow
    rw [← deliveryOf_congr hid hpayload]
    exact h.sendable stored hstored
  known delivery hdelivery := by
    show _ ∈ (s.ahead attempts).map _
    rw [map_eventId_ahead]
    exact h.known delivery hdelivery
  loaded := List.forall_mem_nil _
  changed := List.forall_mem_nil _
  distinct := .nil
  waiting := List.forall_mem_nil _
  sending := nofun
  counted := h.counted
  bounded := h.bounded
  final _ hrow _ := hrow
  answered := h.answered

theorem Balanced.sends_le (h : Balanced text settings s acknowledged attempts callbacks current) {row : OutboxCallback}
    (hrow : row ∈ s.outbox) : s.sends row.eventId ≤ settings.callbackMaxAttempts := by
  have hid := List.mem_map_of_mem (f := OutboxCallback.eventId) hrow
  rw [← map_eventId_ahead] at hid
  obtain ⟨ahead, hahead, hid⟩ := List.mem_map.mp hid
  rw [← hid, h.counted ahead hahead]
  split
  · next hcurrent =>
    obtain ⟨waiting, hwaiting, heq⟩ := Option.map_eq_some_iff.mp (h.sending _ hcurrent)
    obtain ⟨-, hwaiting, hpending⟩ := h.waiting waiting (List.mem_of_mem_head? hwaiting)
    obtain rfl := h.keyed_ahead.eq_of_key hwaiting hahead heq
    exact (h.bounded waiting hahead).2 hpending
  · exact (h.bounded ahead hahead).1

theorem Balanced.waiting_unanswered (h : Balanced text settings s acknowledged attempts callbacks current)
    (hmem : callback ∈ callbacks) : callback.eventId ∉ acknowledged := by
  intro hack
  obtain ⟨-, hahead, hpending⟩ := h.waiting callback hmem
  obtain ⟨row, hrow, hid, hsent⟩ := h.answered callback.eventId hack
  obtain rfl := h.keyed_ahead.eq_of_key hrow hahead hid
  exact absurd (hpending.symm.trans hsent) nofun

/-- The batch goes on to its next callback, or to its commit. -/
theorem Balanced.sendNext (h : Balanced text settings s acknowledged attempts callbacks none) :
    ∃ batch s', sendNext text s attempts callbacks = (s', some batch) ∧ batch.attempts = attempts ∧
      batch.callbacks = callbacks ∧ Balanced text settings s' acknowledged attempts callbacks batch.current ∧
      s'.outbox = s.outbox ∧ ∀ eventId ∈ acknowledged, s'.sends eventId = s.sends eventId := by
  cases callbacks with
  | nil => exact ⟨.commit attempts, s, rfl, rfl, rfl, h, rfl, fun _ _ => rfl⟩
  | cons callback callbacks =>
    obtain ⟨delivery, hof⟩ := h.sendable callback (h.waiting callback List.mem_cons_self).1
    refine ⟨.sending attempts callback callbacks, { s with sent := s.sent ++ [delivery] }, ?_, rfl, rfl, h.send hof, rfl, ?_⟩
    · simp only [PixService.sendNext, hof]
    · intro eventId hack
      rw [sends_append, eventId_of_deliveryOf hof, if_neg, Nat.add_zero]
      rintro rfl
      exact h.waiting_unanswered List.mem_cons_self hack

end Balanced

/-! ### Steps -/

/-- A callback as it is enqueued. -/
structure OutboxCallback.Queued (text : PythonText) (callback : OutboxCallback) : Prop where
  pending : callback.status = .pending
  count : callback.attemptCount = 0
  sendable : ∃ delivery, deliveryOf text callback = .ok delivery

/-- What all calls but the batches do to the outbox. -/
def Enqueues (text : PythonText) (s s' : Service) : Prop :=
  s'.sent = s.sent ∧ s'.acknowledged = s.acknowledged ∧ ∃ added : Option OutboxCallback,
    s'.outbox = s.outbox ++ added.toList ∧ ∀ callback ∈ added,
      callback.eventId ∉ s.outbox.map OutboxCallback.eventId ∧ callback.Queued text

section Enqueues
variable {env : ServiceEnv} {text : PythonText} {s s' : Service}

theorem Enqueues.of_outbox (hsent : s'.sent = s.sent) (hack : s'.acknowledged = s.acknowledged)
    (houtbox : s'.outbox = s.outbox) : Enqueues text s s' :=
  ⟨hsent, hack, none, by simp [houtbox], nofun⟩

theorem callbackOf_queued (settings : Settings) (fresh : Fresh) (order : PixOrder) :
    (callbackOf settings fresh order).Queued text :=
  ⟨rfl, rfl, _, rfl⟩

theorem collectionCallback_queued (settings : Settings) (fresh : Fresh) (collection : CollectionOrder) :
    (collectionCallback settings fresh collection).Queued text :=
  ⟨rfl, rfl, _, rfl⟩

theorem startService_enqueues {request : ServiceRequest} (h : ∀ now, request ≠ .sendPendingCallbacks now) :
    Enqueues text s (startService env request s).1 := by
  rcases startService_started request with ⟨_, _, tables, -, hcreate, hs'⟩ | ⟨_, _, _, -, -, hs'⟩ | ⟨now, hnow, -⟩ | hs'
  · rw [hs']
    exact .of_outbox rfl rfl (create_created hcreate).outbox
  · rw [hs']
    exact .of_outbox rfl rfl rfl
  · exact absurd hnow (h now)
  · rw [hs']
    exact .of_outbox rfl rfl rfl

theorem resumeService_enqueues {call : ServiceCall} {answer : ServiceAnswer} (hmade : call.Made env.settings)
    (h : call.batch? = none) : Enqueues text s (resumeService env call answer s).1 := by
  have hresumed : ServiceResumed env call answer s _ := resumeService_resumed call answer
  rcases hresumed with ⟨_, _, _, -, -, -, hs'⟩ | ⟨webhook, change, db, rfl, hcommit, hs'⟩ |
    ⟨webhook, change, tables, rfl, -, hcommit, hs'⟩ | ⟨batch, answer', rfl, -, -⟩ | ⟨-, hs'⟩
  · rw [hs']
    exact .of_outbox rfl rfl rfl
  · obtain ⟨_, -, -, hnew, rfl⟩ := Db.commit_inv hcommit
    rw [hs']
    refine ⟨rfl, rfl, change.callback, rfl, fun callback hmem => ⟨Table.find_eq_none.mp (hnew callback hmem), ?_⟩⟩
    obtain ⟨fresh, order, rfl⟩ := hmade.1 callback hmem
    exact callbackOf_queued _ fresh order
  · obtain ⟨_, hwritten⟩ := commitCollection_inv hcommit
    obtain ⟨hnew, hdb⟩ := insertIf_callback_inv hwritten.db
    rw [hs']
    refine ⟨rfl, rfl, change.callback, congrArg Db.outboxCallbacks hdb, fun callback hmem => ?_⟩
    refine ⟨Table.find_eq_none.mp (hnew callback hmem), ?_⟩
    obtain ⟨fresh, rfl⟩ := CollectionChange.Made.callbackOf hmade callback hmem
    exact collectionCallback_queued _ fresh _
  · cases h
  · rw [hs']
    exact .of_outbox rfl rfl rfl

end Enqueues
/-! ### Runs -/

section Runs
variable {env : ServiceEnv} {c c' : Config Service ServiceCall} {call : ServiceCall} {rest : List ServiceCall}
  {op : Op ServiceRequest ServiceAnswer} {ops : List (Op ServiceRequest ServiceAnswer)}

def Service.Balanced (env : ServiceEnv) (s : Service) : List Attempt → List OutboxCallback → Option String → Prop :=
  PixService.Balanced env.text env.outbox s.sender s.acknowledged

/-- At most one batch waits, and the outbox is balanced with it. -/
inductive Steady (env : ServiceEnv) (c : Config Service ServiceCall) : Prop where
  | idle (hbatches : batches c = []) (h : c.shared.Balanced env [] [] none)
  | busy (batch : Batch) (hbatches : batches c = [batch])
      (h : c.shared.Balanced env batch.attempts batch.callbacks batch.current)

theorem batches_after {r : Service × Option ServiceCall} :
    batches (.after rest r) = rest.filterMap ServiceCall.batch? ++ (r.2.bind ServiceCall.batch?).toList := by
  obtain ⟨s, _ | call⟩ := r
  · simp [batches, Config.after]
  · cases hbatch : call.batch? <;> simp [batches, Config.after, hbatch]

theorem batches_idle {s : Service} (hrest : rest.filterMap ServiceCall.batch? = []) :
    batches (.after rest (s, none)) = [] := by
  rw [batches_after, hrest]
  rfl

theorem batches_busy {s : Service} {batch : Batch} (hrest : rest.filterMap ServiceCall.batch? = []) :
    batches (.after rest (s, some (.batch batch))) = [batch] := by
  rw [batches_after, hrest]
  rfl

theorem batches_of_perm (hcalls : c.calls.Perm (call :: rest)) :
    (batches c).Perm (call.batch?.toList ++ rest.filterMap ServiceCall.batch?) := by
  refine (hcalls.filterMap ServiceCall.batch?).trans ?_
  cases hbatch : call.batch? <;> simp [hbatch]

theorem Steady.rest_of_none (h : Steady env c) (hcalls : c.calls.Perm (call :: rest)) (hcall : call.batch? = none) :
    rest.filterMap ServiceCall.batch? = batches c := by
  have hperm := batches_of_perm hcalls
  rw [hcall] at hperm
  rcases h with ⟨hbatches, -⟩ | ⟨batch, hbatches, -⟩
  · rw [hbatches] at hperm ⊢
    exact hperm.nil_eq.symm
  · rw [hbatches] at hperm ⊢
    exact List.perm_singleton.mp hperm.symm

theorem Steady.of_batch {batch : Batch} (h : Steady env c) (hcalls : c.calls.Perm (.batch batch :: rest)) :
    batches c = [batch] ∧ rest.filterMap ServiceCall.batch? = [] ∧
      c.shared.Balanced env batch.attempts batch.callbacks batch.current := by
  have hperm : (batches c).Perm (batch :: rest.filterMap ServiceCall.batch?) := batches_of_perm hcalls
  rcases h with ⟨hbatches, -⟩ | ⟨batch', hbatches, h⟩
  · rw [hbatches] at hperm
    exact absurd hperm.length_eq nofun
  · rw [hbatches] at hperm
    obtain ⟨rfl, hrest⟩ := List.cons_eq_cons.mp (List.perm_singleton.mp hperm.symm)
    exact ⟨hbatches, hrest, h⟩

theorem Steady.bounded (h : Steady env c) : Bounded env.outbox c := by
  rcases h with ⟨hbatches, h⟩ | ⟨batch, hbatches, h⟩
  · exact ⟨fun row hrow => h.sends_le hrow, fun _ => h.answered⟩
  · exact ⟨fun row hrow => h.sends_le hrow, fun hnone => absurd (hbatches.symm.trans hnone) nofun⟩

theorem Service.Balanced.enqueues {s s' : Service} {attempts : List Attempt} {callbacks : List OutboxCallback}
    {current : Option String} (h : s.Balanced env attempts callbacks current) (hmax : 0 < env.outbox.callbackMaxAttempts)
    (henqueues : Enqueues env.text s s') : s'.Balanced env attempts callbacks current := by
  obtain ⟨hsent, hack, added, houtbox, hadded⟩ := henqueues
  unfold Service.Balanced Service.sender
  rw [hsent, hack, houtbox]
  cases added with
  | none =>
    rw [Option.toList_none, List.append_nil]
    exact h
  | some callback =>
    obtain ⟨hnew, hqueued⟩ := hadded callback rfl
    exact PixService.Balanced.enqueue h hmax hnew hqueued.pending hqueued.count hqueued.sendable

/-- A step that leaves the waiting batches as they were. -/
theorem Isolated.of_enqueues (hbatches : batches c' = batches c) (h : Enqueues env.text c.shared c'.shared) :
    Isolated c c' := by
  obtain ⟨hsent, -, added, houtbox, -⟩ := h
  refine ⟨fun row hrow _ => ⟨row, ?_, rfl, rfl⟩, fun eventId _ => ?_, fun batch hbatch => .inl ⟨batch, ?_, ?_⟩⟩
  · rw [houtbox]
    exact List.mem_append_left _ hrow
  · unfold Sender.sends Service.sender
    rw [hsent]
  · rwa [hbatches]
  · exact ⟨List.prefix_rfl, rfl⟩

theorem Steady.of_enqueues (h : Steady env c) (hmax : 0 < env.outbox.callbackMaxAttempts)
    (hbatches : batches c' = batches c) (henqueues : Enqueues env.text c.shared c'.shared) : Steady env c' := by
  rcases h with ⟨hnone, h⟩ | ⟨batch, hone, h⟩
  · exact .idle (hbatches.trans hnone) (h.enqueues hmax henqueues)
  · exact .busy batch (hbatches.trans hone) (h.enqueues hmax henqueues)

/-- The rows that are due, if there are any, are taken, and the first of them is sent. -/
theorem Steady.start_batch (h : Steady env c) (hnone : batches c = []) (now : DateTime) :
    Steady env (.after c.calls (startService env (.sendPendingCallbacks now) c.shared)) ∧
      Isolated c (.after c.calls (startService env (.sendPendingCallbacks now) c.shared)) := by
  have hbalanced : c.shared.Balanced env [] [] none := by
    rcases h with ⟨-, h⟩ | ⟨batch, hone, -⟩
    · exact h
    · exact absurd (hone.symm.trans hnone) nofun
  have hidle : ∀ {batch}, batch ∉ batches c := by simp [hnone]
  cases hselected : dueCallbacks now c.shared.sender.outbox with
  | nil =>
    have hstart : startService env (.sendPendingCallbacks now) c.shared = (c.shared, none) := by
      simp only [startService, startSender, hselected]
      rfl
    rw [hstart]
    have hsame : Config.after c.calls (c.shared, none) = c := by simp [Config.after]
    rw [hsame]
    exact ⟨h, fun row hrow _ => ⟨row, hrow, rfl, rfl⟩, fun _ _ => rfl, fun _ hbatch => absurd hbatch hidle⟩
  | cons callback callbacks =>
    have hselect := hbalanced.select now
    rw [hselected] at hselect
    obtain ⟨batch, s', hnext, hattempts, hcallbacks, hbalanced', houtbox, hsends⟩ := hselect.sendNext
    have hstart : startService env (.sendPendingCallbacks now) c.shared = (c.shared.setSender s', some (.batch batch)) := by
      simp only [startService, startSender, hselected, hnext]
      rfl
    rw [hstart]
    refine ⟨.busy batch (batches_busy hnone) ?_, ?_⟩
    · rw [hattempts, hcallbacks]
      exact hbalanced'
    · refine ⟨fun row hrow _ => ⟨row, ?_, rfl, rfl⟩, hsends, fun _ hbatch => absurd hbatch hidle⟩
      show row ∈ s'.outbox
      rwa [houtbox]

theorem acknowledges_spec (attempts : List Attempt) {callback changed : OutboxCallback}
    (callbacks : List OutboxCallback) {answer : SenderAnswer} {settings : OutboxSettings}
    (hsend : afterSend settings (countAttempt callback) answer = some changed) :
    ∀ eventId ∈ acknowledges (.sending attempts callback callbacks) answer,
      eventId = callback.eventId ∧ changed.status = .sent := by
  intro eventId hid
  cases answer with
  | response statusCode text now =>
    simp only [acknowledges] at hid
    split at hid
    · next h2xx =>
      cases hid
      simp only [afterSend, if_pos h2xx, Option.some.injEq] at hsend
      exact ⟨rfl, hsend ▸ rfl⟩
    · cases hid
  | networkError | raised | database => cases hid

/-- The commit records what became of each callback of the batch. -/
theorem Steady.commit_batch (h : Steady env c) {attempts : List Attempt}
    (hcalls : c.calls.Perm (.batch (.commit attempts) :: rest)) {s : Service}
    (hs : s = c.shared.setSender { c.shared.sender with outbox := c.shared.sender.ahead attempts }) :
    Steady env (.after rest (s, none)) ∧ Isolated c (.after rest (s, none)) := by
  obtain ⟨hone, hrest, hbalanced⟩ := h.of_batch hcalls
  subst hs
  refine ⟨.idle (batches_idle hrest) hbalanced.commit, fun row hrow hstatus => ?_, fun _ _ => rfl,
    fun batch hbatch => .inr ?_⟩
  · exact ⟨row, hbalanced.final row hrow hstatus, rfl, rfl⟩
  · rw [hone, List.mem_singleton] at hbatch
    subst hbatch
    exact ⟨rfl, fun attempt hattempt => (hbalanced.changed attempt hattempt).1⟩

/-- The answer is counted, and the next callback is sent. -/
theorem Steady.answer_batch (h : Steady env c) {attempts : List Attempt} {callback changed : OutboxCallback}
    {callbacks : List OutboxCallback} {answer : SenderAnswer}
    (hcalls : c.calls.Perm (.batch (.sending attempts callback callbacks) :: rest))
    (hsend : afterSend env.outbox (countAttempt callback) answer = some changed)
    (hr : resumeSender env.text env.outbox (.sending attempts callback callbacks) answer c.shared.sender =
      sendNext env.text c.shared.sender (attempts ++ [⟨callback, changed⟩]) callbacks) :
    Steady env (.after rest (resumeBatch env (.sending attempts callback callbacks) answer c.shared)) ∧
      Isolated c (.after rest (resumeBatch env (.sending attempts callback callbacks) answer c.shared)) := by
  obtain ⟨hone, hrest, hbalanced⟩ := h.of_batch hcalls
  have hattempted := hbalanced.answer (afterSend_attempted hsend) (acknowledges_spec attempts callbacks hsend)
  obtain ⟨batch', s', hnext, hattempts, hcallbacks, hbalanced', houtbox, hsends⟩ := hattempted.sendNext
  have hnext : sendNext env.text c.shared.sender (attempts ++ [⟨callback, changed⟩]) callbacks = (s', some batch') :=
    hnext
  simp only [resumeBatch, hr, hnext]
  refine ⟨.busy batch' (batches_busy hrest) ?_, fun row hrow _ => ⟨row, ?_, rfl, rfl⟩, fun eventId hack => ?_,
    fun batch hbatch => .inl ⟨batch', ?_, ?_, ?_⟩⟩
  · rw [hattempts, hcallbacks]
    exact hbalanced'
  · show row ∈ s'.outbox
    rwa [houtbox]
  · exact hsends eventId (List.mem_append_left _ hack)
  · exact (batches_busy hrest).symm ▸ List.mem_singleton_self batch'
  all_goals
    rw [hone, List.mem_singleton] at hbatch
    subst hbatch
  · rw [hattempts]
    exact List.prefix_append _ _
  · unfold Batch.taken
    rw [hattempts, hcallbacks, List.map_append, List.append_assoc]
    rfl

/-- A batch that waits on leaves all as it was. -/
theorem Steady.wait_batch (h : Steady env c) {batch : Batch} (hcalls : c.calls.Perm (.batch batch :: rest)) :
    Steady env (.after rest (c.shared, some (.batch batch))) ∧
      Isolated c (.after rest (c.shared, some (.batch batch))) := by
  obtain ⟨hone, hrest, hbalanced⟩ := h.of_batch hcalls
  have hsame : batches (.after rest (c.shared, some (.batch batch))) = batches c := (batches_busy hrest).trans hone.symm
  have henqueues : Enqueues env.text c.shared c.shared := .of_outbox rfl rfl rfl
  exact ⟨.busy batch (batches_busy hrest) hbalanced, .of_enqueues hsame henqueues⟩

/-- A batch whose answer does not end it goes on. -/
theorem Steady.resume_batch (h : Steady env c) {batch : Batch} {answer : SenderAnswer}
    (hcalls : c.calls.Perm (.batch batch :: rest)) (hgoesOn : batch.GoesOn answer) :
    Steady env (.after rest (resumeBatch env batch answer c.shared)) ∧
      Isolated c (.after rest (resumeBatch env batch answer c.shared)) := by
  have hresumed : SenderResumed env.text env.outbox batch answer c.shared.sender _ :=
    resumeSender_resumed batch answer c.shared.sender
  rcases hresumed with ⟨attempts, rfl, rfl, hr⟩ | ⟨attempts, callback, changed, callbacks, rfl, hsend, hr⟩ |
    ⟨attempts, rfl, hr⟩ | ⟨attempts, rfl, rfl, -⟩ | ⟨attempts, callback, callbacks, rfl, hsend, -⟩
  · simp only [resumeBatch, hr, acknowledges, Option.toList_none, List.append_nil]
    exact h.commit_batch hcalls rfl
  · exact h.answer_batch hcalls hsend hr
  · simp only [resumeBatch, hr, acknowledges, Option.toList_none, List.append_nil]
    exact h.wait_batch hcalls
  · cases hgoesOn
  · cases answer with
    | response | networkError => cases hsend
    | raised | database => exact hgoesOn.elim

theorem startService_batch? {request : ServiceRequest} {s : Service} (h : ∀ now, request ≠ .sendPendingCallbacks now) :
    (startService env request s).2.bind ServiceCall.batch? = none := by
  refine Option.bind_eq_none_iff.mpr fun call hcall => ?_
  rcases startService_next hcall with ⟨_, _, -, rfl⟩ | ⟨_, _, -, rfl⟩ | ⟨now, _, hrequest, -, -⟩
  · rfl
  · rfl
  · exact absurd hrequest (h now)

theorem resumeService_batch? {answer : ServiceAnswer} {s : Service} (h : call.batch? = none) :
    (resumeService env call answer s).2.bind ServiceCall.batch? = none := by
  refine Option.bind_eq_none_iff.mpr fun next hnext => ?_
  rcases resumeService_next hnext with ⟨_, _, _, _, -, -, rfl⟩ | ⟨_, _, _, _, _, -, -, -, -, rfl⟩ | ⟨_, -, rfl⟩ |
    ⟨_, _, _, rfl, -, -⟩ | rfl
  · rfl
  · rfl
  · rfl
  · cases h
  · exact h

theorem Steady.step (hsteady : Steady env c) (hmade : AllMade env c) (hmax : 0 < env.outbox.callbackMaxAttempts)
    (hone : OneBatchAtATime c op) (hstep : (pixService env).step c op = .ok c') : Steady env c' ∧ Isolated c c' := by
  cases step_moved hstep with
  | start request hop hc' =>
    subst hop hc'
    by_cases hsend : ∃ now, request = .sendPendingCallbacks now
    · obtain ⟨now, rfl⟩ := hsend
      exact hsteady.start_batch hone now
    · have hrequest := not_exists.mp hsend
      have hbatches : batches (.after c.calls (startService env request c.shared)) = batches c := by
        rw [batches_after, startService_batch? hrequest]
        exact List.append_nil _
      have henqueues : Enqueues env.text c.shared (startService env request c.shared).1 := startService_enqueues hrequest
      exact ⟨hsteady.of_enqueues hmax hbatches henqueues, .of_enqueues hbatches henqueues⟩
  | resume i answer call rest hop hcall hcalls hc' =>
    subst hop hc'
    cases hbatch : call.batch? with
    | none =>
      have hbatches : batches (.after rest (resumeService env call answer c.shared)) = batches c := by
        rw [batches_after, resumeService_batch? hbatch, hsteady.rest_of_none hcalls hbatch]
        exact List.append_nil _
      have henqueues : Enqueues env.text c.shared (resumeService env call answer c.shared).1 :=
        resumeService_enqueues (hmade call (hcalls.mem_iff.mpr List.mem_cons_self)) hbatch
      exact ⟨hsteady.of_enqueues hmax hbatches henqueues, .of_enqueues hbatches henqueues⟩
    | some batch =>
      cases call with
      | order | cancelCollectionQr | commitCollection => cases hbatch
      | batch waiting =>
        cases answer with
        | sender answer => exact hsteady.resume_batch hcalls (hone _ hcall waiting rfl)
        | update answer => exact hsteady.wait_batch hcalls
  | crash i _ _ hop =>
    subst hop
    obtain ⟨call, rest, hcall, hcalls, rfl⟩ := crash_lost hstep
    have hbatches : batches ⟨c.shared, rest⟩ = batches c := hsteady.rest_of_none hcalls (hone call hcall)
    have henqueues : Enqueues env.text c.shared c.shared := .of_outbox rfl rfl rfl
    exact ⟨hsteady.of_enqueues hmax hbatches henqueues, .of_enqueues hbatches henqueues⟩

/-- What a step leaves: attempts that are bounded, and callbacks that do not disturb each other. -/
def BoundedAndIsolated (env : ServiceEnv) (c : Config Service ServiceCall) (op : Op ServiceRequest ServiceAnswer) :
    Prop :=
  Bounded env.outbox (next (pixService env).step c op) ∧ Isolated c (next (pixService env).step c op)

theorem Balanced.empty {text : PythonText} {settings : OutboxSettings} :
    Balanced text settings ⟨[], []⟩ [] [] [] none where
  keyed := .nil
  sendable := List.forall_mem_nil _
  known := List.forall_mem_nil _
  loaded := List.forall_mem_nil _
  changed := List.forall_mem_nil _
  distinct := .nil
  waiting := List.forall_mem_nil _
  sending := nofun
  counted := List.forall_mem_nil _
  bounded := List.forall_mem_nil _
  final := List.forall_mem_nil _
  answered := List.forall_mem_nil _

/-- Batches that run one at a time, each of them up to its commit, attempt each callback as often as they may, and record
    what became of it whatever became of the others. -/
theorem attempts_bounded_and_isolated (hmax : 0 < env.outbox.callbackMaxAttempts)
    (hone : Along (pixService env).step OneBatchAtATime ⟨.empty, []⟩ ops) :
    Along (pixService env).step (BoundedAndIsolated env) ⟨.empty, []⟩ ops := by
  refine along_of_along (I := fun c => Steady env c ∧ AllMade env c) ?_ ?_ ⟨?_, ?_⟩ hone
  · exact fun c op c' hc hone hstep => ⟨(hc.1.step hc.2 hmax hone hstep).1, hc.2.step hstep⟩
  · intro c op hc hone
    unfold BoundedAndIsolated
    cases hstep : (pixService env).step c op with
    | error e =>
      rw [next_of_error hstep]
      have henqueues : Enqueues env.text c.shared c.shared := .of_outbox rfl rfl rfl
      exact ⟨hc.1.bounded, .of_enqueues rfl henqueues⟩
    | ok c' =>
      rw [next_of_ok hstep]
      obtain ⟨hsteady, hisolated⟩ := hc.1.step hc.2 hmax hone hstep
      exact ⟨hsteady.bounded, hisolated⟩
  · exact .idle rfl .empty
  · exact List.forall_mem_nil _

end Runs
/-! ### Two callbacks in one batch -/

section Examples

instance decidableGoesOn : (batch : Batch) → (answer : SenderAnswer) → Decidable (batch.GoesOn answer)
  | .sending .., .response .. | .sending .., .networkError .. => instDecidableTrue
  | .sending .., .raised | .sending .., .database _ => instDecidableFalse
  | .commit _, .database reached => inferInstanceAs (Decidable (reached = true))
  | .commit _, .response .. | .commit _, .networkError .. | .commit _, .raised => instDecidableTrue

instance (c : Config Service ServiceCall) : Decidable (batches c = []) :=
  decidable_of_iff ((batches c).isEmpty = true) List.isEmpty_iff

instance decidableOneBatchAtATime (c : Config Service ServiceCall) : (op : Op ServiceRequest ServiceAnswer) →
    Decidable (OneBatchAtATime c op)
  | .start (.sendPendingCallbacks _) => inferInstanceAs (Decidable (batches c = []))
  | .start (.create ..) | .start (.reconcileOrder ..) | .start (.cancelOrder _) | .start (.cancelCollection _)
  | .start (.receiveCorpxWebhook ..) => instDecidableTrue
  | .resume i (.sender answer) =>
    inferInstanceAs (Decidable (∀ call ∈ c.calls[i]?, ∀ batch ∈ call.batch?, batch.GoesOn answer))
  | .resume _ (.update _) => instDecidableTrue
  | .crash i => inferInstanceAs (Decidable (∀ call ∈ c.calls[i]?, call.batch? = none))

/-- Two deposits are made and paid, and their callbacks are enqueued. -/
def twoPaidDeposits : List (Op ServiceRequest ServiceAnswer) :=
  (newDeposit "1" :: depositWebhook "1") ++ (newDeposit "2" :: depositWebhook "2")

/-- The API takes the second callback, and later the first one. -/
theorem attempts_bounded_and_isolated_retry :
    Along (pixService testService).step (BoundedAndIsolated testService) ⟨.empty, []⟩
      (twoPaidDeposits ++ [.start (.sendPendingCallbacks 1), .resume 0 (.sender (.response 500 "" 1)),
        .resume 0 (.sender (.response 200 "" 1)), .resume 0 (.sender (.database true)),
        .start (.sendPendingCallbacks 31), .resume 0 (.sender (.response 200 "" 31)),
        .resume 0 (.sender (.database true))]) :=
  attempts_bounded_and_isolated (by decide) (by decide +kernel)

/-- The API takes the first callback, and the request for the second one ends in an error that is not caught. -/
def raisedAfterSent : List (Op ServiceRequest ServiceAnswer) :=
  twoPaidDeposits ++ [.start (.sendPendingCallbacks 1), .resume 0 (.sender (.response 200 "" 1))]

/-- The callback that the API took is not recorded as sent. -/
theorem raised_send_undoes_sent :
    ¬Along (pixService testService).step (BoundedAndIsolated testService) ⟨.empty, []⟩
      (raisedAfterSent ++ [.resume 0 (.sender .raised)]) := by
  intro h
  obtain ⟨hbounded, -⟩ := (Along.append.mp h).2.1
  have hrecorded := hbounded.recorded (by decide +kernel) "1" (by decide +kernel)
  exact absurd hrecorded (by decide +kernel)

end Examples
end CredBridge.PixService
