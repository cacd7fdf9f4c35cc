import CredBridge.Theorems.LandedSubmissions

/-! # What is not confirmed in time

A call that gives up asked for the status once more, a poll's interval before its deadline. If the ledger's times, what the
server has seen and the timers are not too late by then, the transaction can only be in a ledger that closes afterwards:
which is too late for a transaction that the API signs, and not for one that a client signed. -/

namespace CredBridge.Api
open Concurrent Machine SequencedLedger

variable {Op : Type}

/-- How late the ledgers may be that the server has not seen, and a timer, in milliseconds. -/
structure Delays where
  lag : Nat
  jitter : Nat

/-- A ledger does not close with a time that is past by more than the lag. -/
def OnTime (d : Delays) (s : StellarState Op) : StellarInput Op → Prop
  | .ledger (.apply entry) => s.clock < entry.closedAt * 1000 + d.lag
  | .ledger (.close _) | .ledger (.skip _ _) | .submit _ => True

/-- The clock does not go back; the server has seen the ledgers that closed before the lag, and a timer wakes its call. -/
def Prompt (d : Delays) (s : StellarState Op) (f : Submitting Op) (reply : StellarReply) : Prop :=
  s.clock ≤ reply.now ∧
    match f, reply.answer with
    | .getTransaction _ _ _, .transaction seen =>
      ∀ entry ∈ s.ledger.entries.drop seen, reply.now < entry.closedAt * 1000 + d.lag
    | .sleep _ _ _ polledAt, .woke => reply.now ≤ polledAt + pollIntervalMs + d.jitter
    | _, _ => True

def SubmitRequest.invokes : SubmitRequest Op → Bool
  | .invokeContract _ _ _ => true
  | .submitWithDetail _ _ _ | .submitSignedTx _ | .submitSignedAssignment _ => false

/-- The transaction is in no ledger but those that close after a time. -/
def OnlyAfter (d : Delays) (s : StellarState Op) (tx : StellarTx Op) (t : Nat) : Prop :=
  ∀ entry ∈ s.ledger.entries, entry.tx = tx → t < entry.closedAt * 1000 + d.lag

/-- The transaction's time is up half a minute before the deadline. -/
def Brief (tx : StellarTx Op) (deadline : Nat) : Prop :=
  ∃ t, tx.maxTime = some t ∧ (t + txTimeoutSeconds) * 1000 ≤ deadline

def Submitting.Timed (d : Delays) (s : StellarState Op) : Submitting Op → Prop
  | .loadAccount _ _ _ | .submitTransaction _ _ => True
  | .simulateTransaction request tx | .sendTransaction request tx =>
    request.invokes = true → Brief tx (s.clock + pollDeadlineMs)
  | .getTransaction request tx deadline => request.invokes = true → Brief tx deadline
  | .sleep request tx deadline polledAt =>
    (request.invokes = true → Brief tx deadline) ∧ polledAt ≤ s.clock ∧ OnlyAfter d s tx polledAt

/-- A call that gave up has asked close to its deadline, and its transaction can only be in later ledgers. -/
def GivenUp (d : Delays) (s : StellarState Op) (e : EndedSubmit Op) : Prop :=
  ∀ tx deadline, e.outcome = .timedOut tx deadline → (e.request.invokes = true → Brief tx deadline) ∧
    ∃ t ≤ s.clock, deadline ≤ t + pollIntervalMs + d.jitter ∧ OnlyAfter d s tx t

structure Timely (d : Delays) (s : StellarState Op) : Prop where
  sound : Sound s.ledger
  givenUp : ∀ e ∈ s.ended, GivenUp d s e

/-- Time goes on, and what is new in the ledger is not older than the lag. -/
structure GoesOn (d : Delays) (s s' : StellarState Op) : Prop where
  clock : s.clock ≤ s'.clock
  new : ∀ entry ∈ s'.ledger.entries, entry ∈ s.ledger.entries ∨ s.clock < entry.closedAt * 1000 + d.lag

section Timely
variable {d : Delays} {s s' : StellarState Op} {f : Submitting Op} {answer : StellarAnswer} {tx : StellarTx Op} {t : Nat}
  {r : StellarState Op × Option (Submitting Op)}

theorem Brief.mono {deadline deadline' : Nat} (h : Brief tx deadline) (hle : deadline ≤ deadline') :
    Brief tx deadline' := by
  obtain ⟨t, ht, htime⟩ := h
  exact ⟨t, ht, Nat.le_trans htime hle⟩

theorem GoesOn.refl (d : Delays) (s : StellarState Op) : GoesOn d s s := ⟨Nat.le_refl _, fun _ h => .inl h⟩

theorem OnlyAfter.goesOn (h : OnlyAfter d s tx t) (ht : t ≤ s.clock) (hon : GoesOn d s s') : OnlyAfter d s' tx t := by
  intro entry hentry htx
  rcases hon.new entry hentry with hold | hnew
  · exact h entry hold htx
  · exact Nat.lt_of_le_of_lt ht hnew

theorem GivenUp.goesOn {e : EndedSubmit Op} (h : GivenUp d s e) (hon : GoesOn d s s') : GivenUp d s' e := by
  intro tx deadline htimedOut
  obtain ⟨hbrief, t, ht, hdeadline, hafter⟩ := h tx deadline htimedOut
  exact ⟨hbrief, t, Nat.le_trans ht hon.clock, hdeadline, hafter.goesOn ht hon⟩

theorem Submitting.Timed.goesOn (h : f.Timed d s) (hon : GoesOn d s s') : f.Timed d s' := by
  cases f with
  | loadAccount | submitTransaction => trivial
  | simulateTransaction | sendTransaction =>
    exact fun hinvokes => (h hinvokes).mono (Nat.add_le_add_right hon.clock _)
  | getTransaction => exact h
  | sleep request tx deadline polledAt =>
    exact ⟨h.1, Nat.le_trans h.2.1 hon.clock, h.2.2.goesOn h.2.1 hon⟩

theorem Timely.goesOn (h : Timely d s) (hon : GoesOn d s s') (hsound : Sound s'.ledger) (hended : s'.ended = s.ended) :
    Timely d s' := ⟨hsound, fun e he => (h.givenUp e (hended ▸ he)).goesOn hon⟩

theorem Timely.record {request : SubmitRequest Op} {outcome : SubmitOutcome Op} (h : Timely d s)
    (hnew : GivenUp d s ⟨request, outcome⟩) : Timely d (s.record request outcome).1 := by
  refine ⟨h.sound, fun e he => ?_⟩
  rcases List.mem_append.mp he with he | he
  · exact h.givenUp e he
  · obtain rfl := List.mem_singleton.mp he
    exact hnew

theorem brief_buildTx (signer : String) (operation : Op) (sequence now : Nat) :
    Brief (buildTx signer sequence now txTimeoutSeconds operation) (now + pollDeadlineMs) := by
  refine ⟨_, rfl, ?_⟩
  simp only [setTimeout, txTimeoutSeconds, pollDeadlineMs]
  omega

/-- What a call learns from the answer that it gets. -/
def Learns (d : Delays) (s : StellarState Op) (f : Submitting Op) (answer : StellarAnswer) : Prop :=
  match f, answer with
  | .getTransaction _ _ _, .transaction seen =>
    ∀ entry ∈ s.ledger.entries.drop seen, s.clock < entry.closedAt * 1000 + d.lag
  | .sleep _ _ _ polledAt, .woke => s.clock ≤ polledAt + pollIntervalMs + d.jitter
  | _, _ => True

theorem Timely.resumed (h : Timely d s) (hf : f.Timed d s) (hlearns : Learns d s f answer)
    (hr : SubmitResumed f answer s r) : Timely d r.1 ∧ GoesOn d s r.1 ∧ ∀ f' ∈ r.2, f'.Timed d r.1 := by
  cases hr with
  | stays => exact ⟨h, .refl d s, fun f' hf' => Option.some.inj hf' ▸ hf⟩
  | built request signer operation tx sequence f' hload hanswer htx hf' =>
    have hon : GoesOn d s { s with built := s.built ++ [tx] } := ⟨Nat.le_refl _, fun _ h => .inl h⟩
    refine ⟨h.goesOn hon h.sound rfl, hon, fun f'' hf'' => ?_⟩
    obtain rfl := Option.some.inj hf''
    rcases hf' with rfl | rfl
    · trivial
    · exact fun _ => htx ▸ brief_buildTx signer operation sequence s.clock
  | assembled request tx resources hsim =>
    subst hsim
    exact ⟨h, .refl d s, fun f' hf' => Option.some.inj hf' ▸ hf⟩
  | sent request tx hsend =>
    subst hsend
    exact ⟨h, .refl d s, fun f' hf' => Option.some.inj hf' ▸ hf⟩
  | unseen request tx deadline seen hpoll hanswer hunseen =>
    subst hpoll hanswer
    refine ⟨h, .refl d s, fun f' hf' => Option.some.inj hf' ▸ ⟨hf, Nat.le_refl _, fun entry hentry htx => ?_⟩⟩
    rw [← List.take_append_drop seen s.ledger.entries] at hentry
    rcases List.mem_append.mp hentry with hseen | hnew
    · exact absurd htx (hunseen entry hseen)
    · exact hlearns entry hnew
  | again request tx deadline polledAt hsleep =>
    subst hsleep
    exact ⟨h, .refl d s, fun f' hf' => Option.some.inj hf' ▸ hf.1⟩
  | confirmed request tx hinquires hlanded =>
    exact ⟨h.record fun _ _ heq => (by cases heq), ⟨Nat.le_refl _, fun _ h => .inl h⟩, fun _ hf' => by cases hf'⟩
  | timedOut request tx deadline polledAt hsleep hanswer hlate =>
    subst hsleep hanswer
    refine ⟨h.record fun tx' deadline' heq => ?_, ⟨Nat.le_refl _, fun _ h => .inl h⟩, fun _ hf' => by cases hf'⟩
    cases heq
    exact ⟨hf.1, polledAt, hf.2.1, Nat.le_trans hlate hlearns, hf.2.2⟩
  | threw outcome hthrew =>
    refine ⟨h.record fun tx' deadline' heq => ?_, ⟨Nat.le_refl _, fun _ h => .inl h⟩, fun _ hf' => by cases hf'⟩
    subst heq
    cases hthrew

theorem Timely.empty (d : Delays) : Timely d (StellarState.empty : StellarState Op) := ⟨.empty, fun _ he => by cases he⟩

/-- A transaction whose time is up half a minute before the deadline is in no ledger. -/
theorem Timely.not_applied (h : Timely d s) (hd : d.lag + d.jitter ≤ 28000) {e : EndedSubmit Op} (he : e ∈ s.ended)
    {deadline : Nat} (htimedOut : e.outcome = .timedOut tx deadline) (hinvokes : e.request.invokes = true) :
    ∀ entry ∈ s.ledger.entries, entry.tx ≠ tx := by
  intro entry hentry htx
  obtain ⟨hbrief, t, -, hdeadline, hafter⟩ := h.givenUp e he tx deadline htimedOut
  obtain ⟨maxTime, hmax, htime⟩ := hbrief hinvokes
  have hclosed : entry.closedAt ≤ maxTime := inTime_iff.mp (h.sound.inTime entry hentry) maxTime (htx ▸ hmax)
  have hlate := hafter entry hentry htx
  simp only [txTimeoutSeconds, pollIntervalMs] at htime hdeadline
  omega

variable [DecidableEq Op]

theorem timelyOutline (d : Delays) : Outline (submissions Op) (OnTime d) (Prompt d) (Timely d)
    (fun s => Submitting.Timed d s) (GoesOn d) where
  start input s h hon := by
    cases input with
    | submit request =>
      have hstart : (startSubmit request s).1.clock = s.clock ∧ (startSubmit request s).1.ledger = s.ledger ∧
          (startSubmit request s).1.ended = s.ended ∧
          ∀ f' ∈ (startSubmit request s).2, f'.Timed d (startSubmit request s).1 := by
        cases request with
        | invokeContract signer method operation | submitWithDetail signer label operation =>
          exact ⟨rfl, rfl, rfl, fun f' hf' => Option.some.inj hf' ▸ trivial⟩
        | submitSignedTx tx | submitSignedAssignment tx =>
          exact ⟨rfl, rfl, rfl, fun f' hf' => Option.some.inj hf' ▸ fun hinvokes => by cases hinvokes⟩
      obtain ⟨hclock, hledger, hended, htimed⟩ := hstart
      have hgoes : GoesOn d s (startSubmit request s).1 :=
        ⟨Nat.le_of_eq hclock.symm, fun entry hentry => .inl (hledger ▸ hentry)⟩
      exact ⟨h.goesOn hgoes (hledger ▸ h.sound) hended, hgoes, htimed⟩
    | ledger event =>
      have hgoes : GoesOn d s { s with ledger := next SequencedLedger.step s.ledger event } := by
        refine ⟨Nat.le_refl _, fun entry hentry => ?_⟩
        rcases entries_next s.ledger event with hsame | ⟨new, rfl, hadded⟩
        · exact .inl (hsame ▸ hentry)
        · rw [hadded] at hentry
          rcases List.mem_append.mp hentry with hold | hnew
          · exact .inl hold
          · exact .inr (List.mem_singleton.mp hnew ▸ hon)
      exact ⟨h.goesOn hgoes (h.sound.next event) rfl, hgoes, fun _ hf' => by cases hf'⟩
  resume f reply s h hf hprompt := by
    have hclock : GoesOn d s { s with clock := reply.now } := ⟨hprompt.1, fun _ h => .inl h⟩
    have hresumed := (h.goesOn hclock h.sound rfl).resumed (hf.goesOn hclock) hprompt.2 (resume_resumed f reply s)
    refine ⟨hresumed.1, ⟨Nat.le_trans hprompt.1 hresumed.2.1.clock, fun entry hentry => ?_⟩, hresumed.2.2⟩
    rcases hresumed.2.1.new entry hentry with hold | hnew
    · exact .inl hold
    · exact .inr (Nat.lt_of_le_of_lt hprompt.1 hnew)
  stable _ _ _ hon hf := hf.goesOn hon

/-- Where ledgers, answers and timers are together less than 28 seconds late, the transaction of an invocation that gave up
    is in no ledger, then and ever after. -/
theorem timed_out_never_lands (d : Delays) (hd : d.lag + d.jitter ≤ 28000)
    (ops : List (Concurrent.Op (StellarInput Op) StellarReply))
    (hprompt : Along (submissions Op).step (Allows (OnTime d) (Prompt d)) ⟨.empty, []⟩ ops) :
    Throughout (submissions Op).step (fun c => ∀ e ∈ c.shared.ended, ∀ tx deadline, e.outcome = .timedOut tx deadline →
      e.request.invokes = true → ∀ entry ∈ c.shared.ledger.entries, entry.tx ≠ tx) ⟨.empty, []⟩ ops := by
  have htimely := (timelyOutline d).throughout ⟨.empty d, fun _ hf => by cases hf⟩ hprompt
  exact htimely.mono fun c hc e he tx deadline htimedOut hinvokes => hc.1.not_applied hd he htimedOut hinvokes

end Timely

/-! ### Signed transactions -/

/-- A call that asks and sleeps, again and again, and hears of nothing. -/
def polls (t : Nat) : Nat → List (Concurrent.Op (StellarInput Op) StellarReply)
  | 0 => []
  | n + 1 => .resume 0 ⟨t, .transaction 0⟩ :: .resume 0 ⟨t + pollIntervalMs, .woke⟩ :: polls (t + pollIntervalMs) n

section Late

theorem prompt_unseen {d : Delays} {s : StellarState Op} {request : SubmitRequest Op} {tx : StellarTx Op}
    {deadline t : Nat} (hentries : s.ledger.entries = []) (hclock : s.clock ≤ t) :
    Prompt d s (.getTransaction request tx deadline) ⟨t, .transaction 0⟩ := by
  refine ⟨hclock, fun entry hentry => ?_⟩
  rw [List.drop_zero, hentries] at hentry
  cases hentry

theorem prompt_wake {d : Delays} {s : StellarState Op} {request : SubmitRequest Op} {tx : StellarTx Op}
    {deadline polledAt t : Nat} (hclock : s.clock ≤ t) (ht : t ≤ polledAt + pollIntervalMs) :
    Prompt d s (.sleep request tx deadline polledAt) ⟨t, .woke⟩ := ⟨hclock, Nat.le_add_right_of_le ht⟩

variable [DecidableEq Op]

theorem next_poll_unseen (s : StellarState Op) (request : SubmitRequest Op) (tx : StellarTx Op) (deadline t : Nat) :
    next (submissions Op).step ⟨s, [.getTransaction request tx deadline]⟩ (.resume 0 ⟨t, .transaction 0⟩) =
      ⟨{ s with clock := t }, [.sleep request tx deadline t]⟩ := rfl

theorem next_wake_again (s : StellarState Op) (request : SubmitRequest Op) (tx : StellarTx Op) {deadline polledAt t : Nat}
    (ht : t < deadline) :
    next (submissions Op).step ⟨s, [.sleep request tx deadline polledAt]⟩ (.resume 0 ⟨t, .woke⟩) =
      ⟨{ s with clock := t }, [.getTransaction request tx deadline]⟩ := by
  rw [next_resume_head]
  show Config.after [] (afterWake request tx deadline { s with clock := t }) = _
  unfold afterWake
  rw [if_pos ht]
  rfl

theorem next_wake_late (s : StellarState Op) (request : SubmitRequest Op) (tx : StellarTx Op) {deadline polledAt t : Nat}
    (ht : deadline ≤ t) :
    next (submissions Op).step ⟨s, [.sleep request tx deadline polledAt]⟩ (.resume 0 ⟨t, .woke⟩) =
      ⟨{ s with clock := t, ended := s.ended ++ [⟨request, .timedOut tx deadline⟩] }, []⟩ := by
  rw [next_resume_head]
  show Config.after [] (afterWake request tx deadline { s with clock := t }) = _
  unfold afterWake
  rw [if_neg (Nat.not_lt.mpr ht)]
  rfl

/-- Polls that go on up to the deadline end the call, on time. -/
theorem run_polls (d : Delays) (request : SubmitRequest Op) (tx : StellarTx Op) (deadline n : Nat) (s : StellarState Op)
    (t : Nat) (hdeadline : t + pollIntervalMs * (n + 1) = deadline) (hentries : s.ledger.entries = [])
    (hclock : s.clock ≤ t) :
    Along (submissions Op).step (Allows (OnTime d) (Prompt d)) ⟨s, [.getTransaction request tx deadline]⟩
        (polls t (n + 1)) ∧
      run (submissions Op).step ⟨s, [.getTransaction request tx deadline]⟩ (polls t (n + 1)) =
        ⟨{ s with clock := deadline, ended := s.ended ++ [⟨request, .timedOut tx deadline⟩] }, []⟩ := by
  induction n generalizing s t with
  | zero =>
    have hwake : t + pollIntervalMs = deadline := by omega
    have hle : t ≤ deadline := by omega
    rw [polls, polls, Along, Along, run, List.foldl_cons, List.foldl_cons, List.foldl_nil, next_poll_unseen, hwake,
      next_wake_late _ _ _ (Nat.le_refl deadline)]
    exact ⟨⟨(allows_resume rfl).mpr (prompt_unseen hentries hclock),
      (allows_resume rfl).mpr (prompt_wake hle (Nat.le_of_eq hwake.symm)), trivial⟩, rfl⟩
  | succ n ih =>
    have hwake : t + pollIntervalMs < deadline := by
      have hpositive : 0 < pollIntervalMs := by decide
      have hmul : pollIntervalMs * (n + 1 + 1) = pollIntervalMs * n + pollIntervalMs + pollIntervalMs := by ring
      omega
    have hrest := ih { s with clock := t + pollIntervalMs } (t + pollIntervalMs)
      (by rw [← hdeadline]; ring) hentries (Nat.le_refl _)
    rw [polls, Along, Along, run, List.foldl_cons, List.foldl_cons, next_poll_unseen, next_wake_again _ _ _ hwake]
    exact ⟨⟨(allows_resume rfl).mpr (prompt_unseen hentries hclock),
      (allows_resume rfl).mpr (prompt_wake (Nat.le_add_right _ _) (Nat.le_refl _)), hrest.1⟩, hrest.2⟩

/-- A signed transaction is sent, asked for up to the deadline, and lands afterwards. -/
def lateLanding (tx : StellarTx Op) (sequence now : Nat) : List (Concurrent.Op (StellarInput Op) StellarReply) :=
  [.start (.ledger (.skip tx.source sequence)), .start (.submit (.submitSignedTx tx)), .resume 0 ⟨now, .sent none⟩] ++
    polls now 30 ++ [.start (.ledger (.apply ⟨tx, now / 1000 + 61, true⟩))]

def lateSent (tx : StellarTx Op) (sequence now : Nat) : StellarState Op :=
  ⟨Ledger.empty.use tx.source sequence, [], [draft tx], now⟩

def lateEnded (tx : StellarTx Op) (sequence now : Nat) : StellarState Op :=
  { lateSent tx sequence now with
    clock := now + pollDeadlineMs
    ended := [⟨.submitSignedTx tx, .timedOut tx (now + pollDeadlineMs)⟩] }

theorem run_lateSent (tx : StellarTx Op) (sequence now : Nat) :
    run (submissions Op).step ⟨.empty, []⟩ [.start (.ledger (.skip tx.source sequence)),
        .start (.submit (.submitSignedTx tx)), .resume 0 ⟨now, .sent none⟩] =
      ⟨lateSent tx sequence now, [.getTransaction (.submitSignedTx tx) tx (now + pollDeadlineMs)]⟩ := by
  simp only [run, List.foldl_cons, List.foldl_nil, next_start, next_resume_head, submissions, startSubmit, Config.after,
    Option.toList_some, Option.toList_none, List.nil_append, List.append_nil, resumeSubmit, afterSend]
  rfl

/-- A signed transaction that is good for a minute and a second longer can land when the call has given up, however prompt
    the answers and the ledgers are. -/
theorem signed_can_land_late (tx : StellarTx Op) (sequence now : Nat) (hseq : tx.seq = sequence + 1)
    (htime : tx.inTime (now / 1000 + 61) = true) :
    Along (submissions Op).step (Allows (OnTime ⟨0, 0⟩) (Prompt ⟨0, 0⟩)) ⟨.empty, []⟩ (lateLanding tx sequence now) ∧
      (run (submissions Op).step ⟨.empty, []⟩ (lateLanding tx sequence now)).shared.ended =
        [⟨.submitSignedTx tx, .timedOut tx (now + pollDeadlineMs)⟩] ∧
      (run (submissions Op).step ⟨.empty, []⟩ (lateLanding tx sequence now)).shared.Landed tx := by
  obtain ⟨halong, hpolls⟩ := run_polls ⟨0, 0⟩ (.submitSignedTx tx) tx (now + pollDeadlineMs) 29
    (lateSent tx sequence now) now (by simp only [pollIntervalMs, pollDeadlineMs]) rfl (Nat.le_refl now)
  have hended : run (submissions Op).step ⟨.empty, []⟩ ([.start (.ledger (.skip tx.source sequence)),
      .start (.submit (.submitSignedTx tx)), .resume 0 ⟨now, .sent none⟩] ++ polls now 30) =
        ⟨lateEnded tx sequence now, []⟩ := by
    rw [run_append, run_lateSent]
    exact hpolls
  have happlied : next SequencedLedger.step (lateEnded tx sequence now).ledger (.apply ⟨tx, now / 1000 + 61, true⟩) =
      (lateEnded tx sequence now).ledger.add ⟨tx, now / 1000 + 61, true⟩ :=
    next_of_ok (step_apply (Nat.zero_le _) (hseq.trans (congrArg (· + 1) (if_pos rfl).symm)) htime)
  have hlast : run (submissions Op).step ⟨.empty, []⟩ (lateLanding tx sequence now) =
      ⟨{ lateEnded tx sequence now with
        ledger := (lateEnded tx sequence now).ledger.add ⟨tx, now / 1000 + 61, true⟩ }, []⟩ := by
    unfold lateLanding
    rw [run_append, hended, ← happlied]
    rfl
  have hontime : OnTime ⟨0, 0⟩ (lateEnded tx sequence now) (.ledger (.apply ⟨tx, now / 1000 + 61, true⟩)) := by
    show now + 60000 < (now / 1000 + 61) * 1000 + 0
    omega
  refine ⟨?_, ?_, ?_⟩
  · unfold lateLanding
    rw [Along.append, Along.append, hended, run_lateSent]
    exact ⟨⟨⟨trivial, trivial, (allows_resume rfl).mpr ⟨Nat.zero_le _, trivial⟩, trivial⟩, halong⟩, hontime, trivial⟩
  · rw [hlast]
    rfl
  · rw [hlast]
    exact ⟨_, List.mem_append_right _ (List.mem_singleton_self _), rfl, rfl⟩

end Late

section Examples

/-- What the API builds for a client to sign is good for three minutes. -/
def clientSignedTx : StellarTx String := buildTx "investor" 0 0 clientSignedTxTimeoutSeconds "deposit 100"

theorem signed_can_land_late_deposit :
    Along (submissions String).step (Allows (OnTime ⟨0, 0⟩) (Prompt ⟨0, 0⟩)) ⟨.empty, []⟩
        (lateLanding clientSignedTx 0 90000) ∧
      (run (submissions String).step ⟨.empty, []⟩ (lateLanding clientSignedTx 0 90000)).shared.ended =
        [⟨.submitSignedTx clientSignedTx, .timedOut clientSignedTx (90000 + pollDeadlineMs)⟩] ∧
      (run (submissions String).step ⟨.empty, []⟩ (lateLanding clientSignedTx 0 90000)).shared.Landed clientSignedTx :=
  signed_can_land_late clientSignedTx 0 90000 rfl (by decide)

def mintTx : StellarTx String := assembleTransaction (buildTx "platform" 0 0 txTimeoutSeconds "mint 100") "resources"

/-- A mint that the network drops: the call asks for a minute, and gives up. -/
def droppedMint : List (Concurrent.Op (StellarInput String) StellarReply) :=
  [.start (.submit (.invokeContract "platform" "mint" "mint 100")), .resume 0 ⟨0, .account 0⟩,
    .resume 0 ⟨500, .simulated (.ok "resources")⟩, .resume 0 ⟨1000, .sent none⟩] ++ polls 1000 30

theorem droppedMint_prompt (d : Delays) :
    Along (submissions String).step (Allows (OnTime d) (Prompt d)) ⟨.empty, []⟩ droppedMint := by
  have hpolls := run_polls d (.invokeContract "platform" "mint" "mint 100") mintTx 61000 29
    { (.empty : StellarState String) with built := [draft mintTx], clock := 1000 } 1000 rfl rfl (Nat.le_refl _)
  rw [droppedMint, Along.append]
  refine ⟨⟨trivial, ?_, ?_, ?_, trivial⟩, hpolls.1⟩
  · exact (allows_resume rfl).mpr ⟨Nat.le_refl 0, trivial⟩
  · exact (allows_resume rfl).mpr ⟨Nat.zero_le 500, trivial⟩
  · exact (allows_resume rfl).mpr ⟨(by decide : 500 ≤ 1000), trivial⟩

theorem timed_out_never_lands_dropped :
    Throughout (submissions String).step (fun c => ∀ e ∈ c.shared.ended, ∀ tx deadline,
      e.outcome = .timedOut tx deadline → e.request.invokes = true → ∀ entry ∈ c.shared.ledger.entries, entry.tx ≠ tx)
      ⟨.empty, []⟩ droppedMint :=
  timed_out_never_lands ⟨10000, 1000⟩ (by decide) droppedMint (droppedMint_prompt _)

end Examples

end CredBridge.Api
