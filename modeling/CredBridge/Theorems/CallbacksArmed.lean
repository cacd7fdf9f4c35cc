import CredBridge.PixService.Service

/-! # No callback is forgotten

The worker selects the pending rows of the outbox by their next attempt, and a row without one never matches. Every
writer sets the next attempt but one: the payment of a collection leaves the column to its default, which is null. So no
row is forgotten along exactly the runs in which no payment of a collection is committed. -/

namespace CredBridge.PixService
open Concurrent Machine Result

/-- The selection of the worker matches the row at every late time. -/
def OutboxCallback.ComesDue (callback : OutboxCallback) : Prop := ∃ t, ∀ now, t ≤ now → due now callback = true

def NoneForgotten (c : Config Service ServiceCall) : Prop :=
  ∀ callback ∈ c.shared.outbox, callback.status = .pending → callback.ComesDue

/-- A step commits no payment of a collection. -/
def PaysNoCollection : Config Service ServiceCall → Op ServiceRequest ServiceAnswer → Prop :=
  Allows (fun _ _ => True) fun s call answer => ∀ change ∈ committedCollection s call answer, change.callback = none

/-! ### Next attempts -/

section Armed
variable {env : ServiceEnv} {settings : OutboxSettings} {text : PythonText} {callback changed : OutboxCallback}
  {attempt : Attempt} {attempts : List Attempt} {outbox : List OutboxCallback} {batch : Batch}

def OutboxCallback.Armed (callback : OutboxCallback) : Prop := callback.nextAttemptAt.isSome

/-- The copies of a batch were pending, and each has a next attempt. -/
structure Batch.Armed (batch : Batch) : Prop where
  attempts : ∀ attempt ∈ batch.attempts, attempt.loaded.status = .pending ∧ attempt.changed.Armed
  callbacks : ∀ callback ∈ batch.callbacks, callback.status = .pending ∧ callback.Armed

def Outbox.Armed (outbox : List OutboxCallback) : Prop :=
  ∀ callback ∈ outbox, callback.status = .pending → callback.Armed

theorem comesDue_iff (hpending : callback.status = .pending) : callback.ComesDue ↔ callback.Armed := by
  unfold OutboxCallback.ComesDue OutboxCallback.Armed due
  rw [hpending]
  cases callback.nextAttemptAt with
  | none => simpa using fun t => ⟨t, Int.le_refl t⟩
  | some t => simpa using ⟨t, fun now h => h⟩

theorem noneForgotten_iff {c : Config Service ServiceCall} : NoneForgotten c ↔ Outbox.Armed c.shared.outbox :=
  forall₂_congr fun _ _ => forall_congr' fun hpending => comesDue_iff hpending

theorem armed_of_due {now : DateTime} (h : due now callback = true) : callback.status = .pending ∧ callback.Armed := by
  unfold due at h
  unfold OutboxCallback.Armed
  cases hnext : callback.nextAttemptAt with
  | none => simp [hnext] at h
  | some t => exact ⟨of_decide_eq_true (Bool.and_eq_true_iff.mp h).1, rfl⟩

theorem scheduleRetry_armed {error : String} {now : DateTime} (harmed : callback.Armed) :
    (scheduleRetry settings callback error now).Armed := by
  unfold scheduleRetry
  split
  · exact harmed
  · rfl

theorem afterSend_armed {answer : SenderAnswer} (harmed : callback.Armed)
    (h : afterSend settings callback answer = some changed) : changed.Armed := by
  cases answer with
  | response statusCode text now =>
    cases h
    split
    · exact harmed
    · exact scheduleRetry_armed harmed
  | networkError message now =>
    cases h
    exact scheduleRetry_armed harmed
  | raised | database reached => cases h

/-- A row that is pending after a write was pending before it, for the copy was. -/
theorem write_armed (hpending : attempt.loaded.status = .pending) (harmed : attempt.changed.Armed)
    (h : Outbox.Armed outbox) : Outbox.Armed (attempt.write outbox) := by
  intro row hrow hstatus
  obtain ⟨stored, hstored, rfl⟩ := Table.mem_modify.mp hrow
  split at hstatus
  · next hid =>
    simp only [if_pos hid, OutboxCallback.Armed]
    have hold : stored.status = .pending := by
      by_cases hsame : attempt.changed.status = attempt.loaded.status
      · rwa [written, if_pos hsame] at hstatus
      · rw [written, if_neg hsame] at hstatus
        exact absurd (hstatus.trans hpending.symm) hsame
    by_cases hsame : attempt.changed.nextAttemptAt = attempt.loaded.nextAttemptAt
    · rw [written, if_pos hsame]
      exact h stored hstored hold
    · rw [written, if_neg hsame]
      exact harmed
  · next hid =>
    rw [if_neg hid]
    exact h stored hstored hstatus

theorem writeAll_armed (hattempts : ∀ a ∈ attempts, a.loaded.status = .pending ∧ a.changed.Armed)
    (h : Outbox.Armed outbox) : Outbox.Armed (attempts.foldl Attempt.write outbox) := by
  induction attempts generalizing outbox with
  | nil => exact h
  | cons attempt attempts ih =>
    obtain ⟨hpending, harmed⟩ := hattempts attempt List.mem_cons_self
    exact ih (fun a ha => hattempts a (List.mem_cons_of_mem _ ha)) (write_armed hpending harmed h)

/-- A callback that joins the outbox leaves it armed exactly if it has a next attempt itself. -/
theorem append_armed_iff {added : Option OutboxCallback} (h : Outbox.Armed outbox)
    (hadded : ∀ callback ∈ added, callback.status = .pending) :
    Outbox.Armed (outbox ++ added.toList) ↔ ∀ callback ∈ added, callback.Armed := by
  constructor
  · intro hall callback hmem
    exact hall callback (List.mem_append_right _ (Option.mem_toList.mpr hmem)) (hadded callback hmem)
  · intro hnew callback hmem hpending
    rcases List.mem_append.mp hmem with hmem | hmem
    · exact h callback hmem hpending
    · exact hnew callback (Option.mem_toList.mp hmem)

/-! ### Batches -/

theorem startSender_armed {s : Sender} {now : DateTime}
    (h : (startSender text (.sendPendingCallbacks now) s).2 = some batch) : batch.Armed := by
  obtain ⟨hattempts, hcallbacks⟩ := startSender_batch h
  refine ⟨by simp [hattempts], fun callback hmem => ?_⟩
  rw [hcallbacks] at hmem
  exact armed_of_due (Rounds.mem_of_mem_first hmem).2

theorem resumeSender_armed {s : Sender} {answer : SenderAnswer} (hbatch : batch.Armed) :
    (Outbox.Armed s.outbox → Outbox.Armed (resumeSender text settings batch answer s).1.outbox) ∧
      ∀ next ∈ (resumeSender text settings batch answer s).2, next.Armed := by
  have hresumed : SenderResumed text settings batch answer s _ := resumeSender_resumed batch answer s
  rcases hresumed with ⟨attempts, rfl, -, hr⟩ | ⟨attempts, callback, changed, callbacks, rfl, hsend, hr⟩ |
    ⟨-, -, hr⟩ | ⟨-, -, -, hr⟩ | ⟨-, -, -, -, -, hr⟩
  · rw [hr]
    exact ⟨writeAll_armed hbatch.attempts, nofun⟩
  · rw [hr]
    refine ⟨fun h => by rwa [sendNext_outbox], fun next hnext => ?_⟩
    obtain ⟨hattempts, hcallbacks⟩ := sendNext_batch hnext
    obtain ⟨hpending, harmed⟩ := hbatch.callbacks callback List.mem_cons_self
    refine ⟨fun a ha => ?_, fun c hc => hbatch.callbacks c (List.mem_cons_of_mem _ (hcallbacks ▸ hc))⟩
    rw [hattempts] at ha
    rcases List.mem_append.mp ha with ha | ha
    · exact hbatch.attempts a ha
    · rw [List.mem_singleton.mp ha]
      have hcounted : (countAttempt callback).Armed := harmed
      exact ⟨hpending, afterSend_armed hcounted hsend⟩
  · rw [hr]
    exact ⟨id, fun next hnext => Option.mem_some.mp hnext ▸ hbatch⟩
  · rw [hr]
    exact ⟨id, nofun⟩
  · rw [hr]
    exact ⟨id, nofun⟩

end Armed

/-! ### Runs -/

section Runs
variable {env : ServiceEnv} {c c' : Config Service ServiceCall} {op : Op ServiceRequest ServiceAnswer}
  {ops : List (Op ServiceRequest ServiceAnswer)}

/-- Where the calls wait: the changes are those that the service makes, and the batches have armed copies. -/
def ServiceCall.Armed (env : ServiceEnv) (call : ServiceCall) : Prop :=
  call.Made env.settings ∧ ∀ batch, call = .batch batch → batch.Armed

theorem armedOutline : Outline (pixService env) (fun _ _ => True) (fun _ _ _ => True) (fun _ => True)
    (fun _ => ServiceCall.Armed env) (fun _ _ => True) where
  start request s _ _ := by
    refine ⟨trivial, trivial, fun call hcall => ⟨startService_made request s call hcall, ?_⟩⟩
    rcases startService_next hcall with ⟨_, _, -, rfl⟩ | ⟨_, _, -, rfl⟩ | ⟨now, batch, -, hbatch, rfl⟩
    · exact nofun
    · exact nofun
    · rintro _ ⟨rfl⟩
      exact startSender_armed hbatch
  resume call answer s _ harmed _ := by
    refine ⟨trivial, trivial, fun next hnext => ⟨resumeService_made harmed.1 answer s next hnext, ?_⟩⟩
    rcases resumeService_next hnext with ⟨_, _, _, _, -, -, rfl⟩ | ⟨_, _, _, _, _, -, -, -, -, rfl⟩ | ⟨_, -, rfl⟩ |
      ⟨batch, batch', _, rfl, hbatch, rfl⟩ | rfl
    · exact nofun
    · exact nofun
    · exact nofun
    · rintro _ ⟨rfl⟩
      exact (resumeSender_armed (harmed.2 batch rfl)).2 batch' hbatch
    · exact harmed.2
  stable _ _ _ _ harmed := harmed

theorem startService_outbox {request : ServiceRequest} {s : Service} :
    (startService env request s).1.outbox = s.outbox := by
  rcases startService_started request with ⟨_, _, tables, -, hcreate, hs'⟩ | ⟨_, _, _, -, -, hs'⟩ | ⟨now, -, hs'⟩ | hs'
  · rw [hs']
    exact (create_created hcreate).outbox
  · rw [hs']
    rfl
  · rw [hs']
    exact startSender_outbox now
  · rw [hs']

/-- What a change of a collection adds is armed exactly if it adds nothing. -/
theorem CollectionChange.Made.armed_iff {change : CollectionChange} (hmade : change.Made env.settings) :
    (∀ callback ∈ change.callback, callback.Armed) ↔ change.callback = none := by
  refine ⟨fun h => Option.eq_none_iff_forall_not_mem.mpr fun callback hmem => ?_, fun h => by simp [h]⟩
  have harmed := h callback hmem
  obtain ⟨fresh, rfl⟩ := hmade.callbackOf callback hmem
  cases harmed

theorem CollectionChange.Made.pending {change : CollectionChange} (hmade : change.Made env.settings) :
    ∀ callback ∈ change.callback, callback.status = .pending := by
  intro callback hmem
  obtain ⟨fresh, rfl⟩ := hmade.callbackOf callback hmem
  rfl

theorem resumeService_armed_iff {call : ServiceCall} {answer : ServiceAnswer} {s : Service}
    (hcall : call.Armed env) (h : Outbox.Armed s.outbox) :
    Outbox.Armed (resumeService env call answer s).1.outbox ↔
      ∀ change ∈ committedCollection s call answer, change.callback = none := by
  have hresumed : ServiceResumed env call answer s _ := resumeService_resumed call answer
  obtain ⟨hmade, hbatch⟩ := hcall
  rcases hresumed with ⟨_, _, _, rfl, -, -, hs'⟩ | ⟨webhook, change, db, rfl, hcommit, hs'⟩ |
    ⟨webhook, change, tables, rfl, hcommitted, hcommit, hs'⟩ | ⟨batch, answer', rfl, rfl, hs'⟩ | ⟨hcommitted, hs'⟩
  · rw [hs']
    exact iff_of_true h fun _ hmem => absurd hmem (Option.not_mem_none _)
  · obtain ⟨_, -, -, -, rfl⟩ := Db.commit_inv hcommit
    rw [hs']
    refine iff_of_true ((append_armed_iff h fun callback hmem => ?_).mpr fun callback hmem => ?_)
      fun _ hmem => absurd hmem (Option.not_mem_none _)
    · obtain ⟨fresh, order, rfl⟩ := hmade.1 callback hmem
      rfl
    · obtain ⟨fresh, order, rfl⟩ := hmade.1 callback hmem
      rfl
  · obtain ⟨_, hwritten⟩ := commitCollection_inv hcommit
    have houtbox : (resumeService env (.commitCollection webhook change) answer s).1.outbox =
        s.outbox ++ change.callback.toList := by
      rw [hs']
      exact congrArg Db.outboxCallbacks (insertIf_callback_inv hwritten.db).2
    rw [houtbox, append_armed_iff h hmade.pending, hmade.armed_iff, hcommitted]
    simp
  · rw [hs']
    exact iff_of_true ((resumeSender_armed (hbatch batch rfl)).1 h) fun _ hmem => absurd hmem (Option.not_mem_none _)
  · rw [hs', hcommitted]
    exact iff_of_true h fun _ hmem => absurd hmem (Option.not_mem_none _)

theorem armed_step_iff (hc : Holds (fun _ => True) (fun _ => ServiceCall.Armed env) c)
    (h : Outbox.Armed c.shared.outbox) (hstep : (pixService env).step c op = .ok c') :
    Outbox.Armed c'.shared.outbox ↔ PaysNoCollection c op := by
  refine moved_iff_allows (Q := fun _ s' => Outbox.Armed s'.outbox) h (fun request => ?_) (fun call hcall answer => ?_)
    hstep
  · show Outbox.Armed (startService env request c.shared).1.outbox
    rwa [startService_outbox]
  · exact resumeService_armed_iff (hc.2 call hcall) h

/-- Each pending callback comes due, in every state of exactly the runs in which no payment of a collection is committed. -/
theorem none_forgotten_iff_pays_no_collection :
    Throughout (pixService env).step NoneForgotten ⟨.empty, []⟩ ops ↔
      Along (pixService env).step PaysNoCollection ⟨.empty, []⟩ ops := by
  refine throughout_iff_along_allows (I := Holds (fun _ => True) fun _ => ServiceCall.Armed env) ?_ ?_ ?_ ?_
  · intro c op c' hc hstep
    exact armedOutline.step hc (allows_all (fun _ _ => trivial) (fun _ _ _ => trivial) c op) hstep
  · intro c op c' hc hP hstep
    rw [noneForgotten_iff] at hP ⊢
    exact armed_step_iff hc hP hstep
  · exact ⟨trivial, List.forall_mem_nil _⟩
  · exact List.forall_mem_nil _

end Runs
section Examples

instance (outbox : List OutboxCallback) : Decidable (Outbox.Armed outbox) :=
  inferInstanceAs (Decidable (∀ c ∈ outbox, c.status = .pending → c.nextAttemptAt.isSome))

/-- The callback of a paid collection never comes due. -/
theorem paid_collection_forgotten :
    ¬Throughout (pixService testService).step NoneForgotten ⟨.empty, []⟩
      (newCollection :: collectionWebhook "event" "qrcode.paid" "callback" 1) :=
  fun h => absurd (noneForgotten_iff.mp h.last) (by decide +kernel)

end Examples
end CredBridge.PixService
