import CredBridge.Api.Submissions

/-! # What a submission tells

A call that returns a hash has its transaction in the ledger, where it succeeded; nothing that happens in between, to other
calls or on the ledger, changes that. A call that gives up has learnt less: the transaction can land when nobody asks any
more. It cannot where the last question comes after the transaction's time, as it does for one that the API signs. -/

namespace CredBridge.Api
open Concurrent Machine SequencedLedger

variable {Op : Type}

/-- A transaction that the request is for. -/
def SubmitRequest.Asks (request : SubmitRequest Op) (tx : StellarTx Op) : Prop :=
  match request with
  | .invokeContract signer _ operation | .submitWithDetail signer _ operation =>
    tx.source = signer ∧ tx.body.operation = operation
  | .submitSignedTx tx' | .submitSignedAssignment tx' => tx = tx'

def StellarState.Landed (s : StellarState Op) (tx : StellarTx Op) : Prop :=
  ∃ entry ∈ s.ledger.entries, entry.tx = tx ∧ entry.success = true

/-- What a call that waits has asked for, or is to ask for. -/
def Submitting.Asked : Submitting Op → Prop
  | .loadAccount request signer operation =>
    ∀ tx : StellarTx Op, tx.source = signer → tx.body.operation = operation → request.Asks tx
  | .simulateTransaction request tx => ∀ resources, request.Asks (assembleTransaction tx resources)
  | .sendTransaction request tx | .getTransaction request tx _ | .sleep request tx _ _
  | .submitTransaction request tx => request.Asks tx

/-- The call learnt neither that its transaction succeeded nor that it is not seen in time. -/
def SubmitOutcome.threw : SubmitOutcome Op → Bool
  | .confirmed _ | .timedOut _ _ => false
  | .simulationFailed _ | .rejected _ | .failedOnChain _ | .submitFailed _ _ | .raised _ => true

/-- A call has asked what became of a transaction. -/
inductive Submitting.Inquires : Submitting Op → SubmitRequest Op → StellarTx Op → Prop where
  | getTransaction (request : SubmitRequest Op) (tx : StellarTx Op) (deadline : Nat) :
    Inquires (.getTransaction request tx deadline) request tx
  | submitTransaction (request : SubmitRequest Op) (tx : StellarTx Op) :
    Inquires (.submitTransaction request tx) request tx

/-- What an answer does to a call, at the time of the answer. -/
inductive SubmitResumed (f : Submitting Op) (answer : StellarAnswer) (s : StellarState Op) :
    StellarState Op × Option (Submitting Op) → Prop where
  | stays : SubmitResumed f answer s (s, some f)
  | built (request : SubmitRequest Op) (signer : String) (operation : Op) (tx : StellarTx Op) (sequence : Nat)
      (f' : Submitting Op) (hf : f = .loadAccount request signer operation) (hanswer : answer = .account sequence)
      (htx : tx = buildTx signer sequence s.clock txTimeoutSeconds operation)
      (hf' : f' = .submitTransaction request tx ∨ f' = .simulateTransaction request tx) :
      SubmitResumed f answer s ({ s with built := s.built ++ [tx] }, some f')
  | assembled (request : SubmitRequest Op) (tx : StellarTx Op) (resources : String)
      (hf : f = .simulateTransaction request tx) :
      SubmitResumed f answer s (s, some (.sendTransaction request (assembleTransaction tx resources)))
  | sent (request : SubmitRequest Op) (tx : StellarTx Op) (hf : f = .sendTransaction request tx) :
      SubmitResumed f answer s (s, some (.getTransaction request tx (s.clock + pollDeadlineMs)))
  | unseen (request : SubmitRequest Op) (tx : StellarTx Op) (deadline seen : Nat)
      (hf : f = .getTransaction request tx deadline) (hanswer : answer = .transaction seen)
      (hunseen : ∀ entry ∈ s.ledger.entries.take seen, entry.tx ≠ tx) :
      SubmitResumed f answer s (s, some (.sleep request tx deadline s.clock))
  | again (request : SubmitRequest Op) (tx : StellarTx Op) (deadline polledAt : Nat)
      (hf : f = .sleep request tx deadline polledAt) :
      SubmitResumed f answer s (s, some (.getTransaction request tx deadline))
  | confirmed (request : SubmitRequest Op) (tx : StellarTx Op) (hf : f.Inquires request tx) (hlanded : s.Landed tx) :
      SubmitResumed f answer s (s.record request (.confirmed tx))
  | timedOut (request : SubmitRequest Op) (tx : StellarTx Op) (deadline polledAt : Nat)
      (hf : f = .sleep request tx deadline polledAt) (hanswer : answer = .woke) (hlate : deadline ≤ s.clock) :
      SubmitResumed f answer s (s.record request (.timedOut tx deadline))
  | threw (outcome : SubmitOutcome Op) (hthrew : outcome.threw = true) :
      SubmitResumed f answer s (s.record f.request outcome)

section Resumed
variable {s : StellarState Op}

theorem afterLoad_resumed (request : SubmitRequest Op) (signer : String) (operation : Op) (sequence : Nat) :
    SubmitResumed (.loadAccount request signer operation) (.account sequence) s
      (afterLoad request signer operation sequence s) := by
  unfold afterLoad
  cases request with
  | submitWithDetail _ _ _ => exact .built _ signer operation _ sequence _ rfl rfl rfl (.inl rfl)
  | invokeContract _ _ _ | submitSignedTx _ | submitSignedAssignment _ =>
    exact .built _ signer operation _ sequence _ rfl rfl rfl (.inr rfl)

theorem afterSimulation_resumed (request : SubmitRequest Op) (tx : StellarTx Op) (result : Except String String)
    (answer : StellarAnswer) :
    SubmitResumed (.simulateTransaction request tx) answer s (afterSimulation request tx result s) := by
  cases result with
  | ok resources => exact .assembled request tx resources rfl
  | error result => exact .threw _ rfl

theorem afterSend_resumed (request : SubmitRequest Op) (tx : StellarTx Op) (errorResult : Option String)
    (answer : StellarAnswer) :
    SubmitResumed (.sendTransaction request tx) answer s (afterSend request tx errorResult s) := by
  cases errorResult with
  | none => exact .sent request tx rfl
  | some errorResult => exact .threw _ rfl

theorem afterWake_resumed (request : SubmitRequest Op) (tx : StellarTx Op) (deadline polledAt : Nat) :
    SubmitResumed (.sleep request tx deadline polledAt) .woke s (afterWake request tx deadline s) := by
  unfold afterWake
  split
  · exact .again request tx deadline polledAt rfl
  · next hlate => exact .timedOut request tx deadline polledAt rfl rfl (Nat.le_of_not_lt hlate)

variable [DecidableEq Op]

theorem landed_of_status {seen : Nat} {tx : StellarTx Op} (h : status (s.ledger.entries.take seen) tx = .success) :
    s.Landed tx := by
  obtain ⟨entry, hentry, htx, hsuccess⟩ := status_eq_success h
  exact ⟨entry, List.mem_of_mem_take hentry, htx, hsuccess⟩

theorem afterPoll_resumed (request : SubmitRequest Op) (tx : StellarTx Op) (deadline seen : Nat) :
    SubmitResumed (.getTransaction request tx deadline) (.transaction seen) s
      (afterPoll request tx deadline seen s) := by
  unfold afterPoll
  split
  · next hstatus => exact .confirmed request tx (.getTransaction request tx deadline) (landed_of_status hstatus)
  · exact .threw _ rfl
  · next hstatus => exact .unseen request tx deadline seen rfl rfl (status_eq_notFound.mp hstatus)

theorem afterSubmit_resumed (request : SubmitRequest Op) (tx : StellarTx Op) (seen : Nat) (detail codes : String)
    (answer : StellarAnswer) :
    SubmitResumed (.submitTransaction request tx) answer s (afterSubmit request tx seen detail codes s) := by
  unfold afterSubmit
  split
  · next hstatus => exact .confirmed request tx (.submitTransaction request tx) (landed_of_status hstatus)
  · exact .threw _ rfl

theorem resume_resumed (f : Submitting Op) (reply : StellarReply) (s : StellarState Op) :
    SubmitResumed f reply.answer { s with clock := reply.now } (resumeSubmit f reply s) := by
  obtain ⟨now, answer⟩ := reply
  unfold resumeSubmit
  dsimp only
  split
  · exact afterLoad_resumed _ _ _ _
  · exact afterSimulation_resumed _ _ _ _
  · exact afterSend_resumed _ _ _ _
  · exact afterPoll_resumed _ _ _ _
  · exact afterWake_resumed _ _ _ _
  · exact afterSubmit_resumed _ _ _ _ _ _
  · exact .stays
  · exact .threw _ rfl
  · exact .stays

end Resumed

/-! ### What is returned has landed -/

/-- Each hash that was returned is of a transaction that the request is for and that has landed. -/
structure Told (s : StellarState Op) : Prop where
  sound : Sound s.ledger
  landed : ∀ e ∈ s.ended, ∀ tx, e.outcome = .confirmed tx → e.request.Asks tx ∧ s.Landed tx

section Told
variable {s s' : StellarState Op} {f : Submitting Op} {answer : StellarAnswer} {r : StellarState Op × Option (Submitting Op)}

theorem StellarState.Landed.extends {tx : StellarTx Op} (h : s.Landed tx) (hext : Extends s.ledger s'.ledger) :
    s'.Landed tx := by
  obtain ⟨entry, hentry, hentry'⟩ := h
  exact ⟨entry, hext.entries.subset hentry, hentry'⟩

theorem Told.same (h : Told s) (hledger : s'.ledger = s.ledger) (hended : s'.ended = s.ended) : Told s' where
  sound := hledger ▸ h.sound
  landed e he tx htx := by
    rw [hended] at he
    obtain ⟨hasks, hlanded⟩ := h.landed e he tx htx
    exact ⟨hasks, hlanded.extends (by rw [hledger]; exact .refl _)⟩

theorem Told.record {request : SubmitRequest Op} {outcome : SubmitOutcome Op} (h : Told s)
    (hnew : ∀ tx, outcome = .confirmed tx → request.Asks tx ∧ s.Landed tx) : Told (s.record request outcome).1 where
  sound := h.sound
  landed e he tx htx := by
    rcases List.mem_append.mp he with he | he
    · exact h.landed e he tx htx
    · obtain rfl := List.mem_singleton.mp he
      exact hnew tx htx

theorem Submitting.Inquires.asks {request : SubmitRequest Op} {tx : StellarTx Op} (h : f.Inquires request tx)
    (hf : f.Asked) : request.Asks tx := by
  cases h <;> exact hf

theorem Told.resumed (h : Told s) (hf : f.Asked) (hr : SubmitResumed f answer s r) : Told r.1 ∧ ∀ f' ∈ r.2, f'.Asked := by
  cases hr with
  | stays => exact ⟨h, fun f' hf' => Option.some.inj hf' ▸ hf⟩
  | built request signer operation tx sequence f' hload hanswer htx hf' =>
    refine ⟨h.same rfl rfl, fun f'' hf'' => ?_⟩
    obtain rfl := Option.some.inj hf''
    subst hload htx
    rcases hf' with rfl | rfl
    · exact hf _ rfl rfl
    · exact fun resources => hf _ rfl rfl
  | assembled request tx resources hsim =>
    subst hsim
    exact ⟨h, fun f' hf' => Option.some.inj hf' ▸ hf resources⟩
  | sent request tx hsend =>
    subst hsend
    exact ⟨h, fun f' hf' => Option.some.inj hf' ▸ hf⟩
  | unseen request tx deadline seen hpoll =>
    subst hpoll
    exact ⟨h, fun f' hf' => Option.some.inj hf' ▸ hf⟩
  | again request tx deadline polledAt hsleep =>
    subst hsleep
    exact ⟨h, fun f' hf' => Option.some.inj hf' ▸ hf⟩
  | confirmed request tx hinquires hlanded =>
    refine ⟨h.record fun tx' htx' => ?_, fun f' hf' => by cases hf'⟩
    cases htx'
    exact ⟨hinquires.asks hf, hlanded⟩
  | timedOut request tx deadline polledAt hsleep =>
    exact ⟨h.record fun tx' htx' => (by cases htx'), fun f' hf' => by cases hf'⟩
  | threw outcome hthrew =>
    refine ⟨h.record fun tx' htx' => ?_, fun f' hf' => by cases hf'⟩
    rw [htx'] at hthrew
    cases hthrew

theorem Told.empty : Told (StellarState.empty : StellarState Op) where
  sound := .empty
  landed _ he := by cases he

variable [DecidableEq Op]

theorem Told.start (h : Told s) (input : StellarInput Op) :
    Told ((submissions Op).start input s).1 ∧ ∀ f ∈ ((submissions Op).start input s).2, f.Asked := by
  cases input with
  | ledger event =>
    refine ⟨⟨h.sound.next event, fun e he tx htx => ?_⟩, fun f' hf' => by cases hf'⟩
    obtain ⟨hasks, hlanded⟩ := h.landed e he tx htx
    exact ⟨hasks, hlanded.extends (next_extends _ _)⟩
  | submit request =>
    cases request with
    | invokeContract signer method operation | submitWithDetail signer label operation =>
      exact ⟨h, fun f' hf' => Option.some.inj hf' ▸ fun tx hsource hoperation => ⟨hsource, hoperation⟩⟩
    | submitSignedTx tx | submitSignedAssignment tx =>
      exact ⟨h.same rfl rfl, fun f' hf' => Option.some.inj hf' ▸ rfl⟩

theorem toldOutline : Outline (submissions Op) (fun _ _ => True) (fun _ _ _ => True) Told
    (fun _ => Submitting.Asked) fun _ _ => True where
  start input s h _ := ⟨(h.start input).1, trivial, (h.start input).2⟩
  resume f reply s h hf _ := by
    have hresumed := (h.same rfl rfl : Told { s with clock := reply.now }).resumed hf (resume_resumed f reply s)
    exact ⟨hresumed.1, trivial, hresumed.2⟩
  stable _ _ _ _ hf := hf

theorem told_throughout (ops : List (Concurrent.Op (StellarInput Op) StellarReply)) :
    Throughout (submissions Op).step (fun c => Told c.shared) ⟨.empty, []⟩ ops :=
  (toldOutline.throughout ⟨.empty, fun _ hf => by cases hf⟩
    (along_allows (fun _ _ => trivial) (fun _ _ _ => trivial) _ ops)).mono fun _ hc => hc.1

end Told

def SubmitOutcome.hashed : SubmitOutcome Op → Option (StellarTx Op)
  | .confirmed tx => some tx
  | _ => none

/-- The transactions whose hashes were returned, each as often as it was. -/
def StellarState.returned (s : StellarState Op) : List (StellarTx Op) := s.ended.filterMap (·.outcome.hashed)

/-- A hash that is returned is of a transaction that the request is for, in the ledger and a success. -/
def HashesLanded (hash : StellarTx Op → String) (s : StellarState Op) : Prop :=
  ∀ e ∈ s.ended, ∀ h, e.result hash = .ok h →
    ∃ entry ∈ s.ledger.entries, hash entry.tx = h ∧ entry.success = true ∧ e.request.Asks entry.tx

/-- Calls that return with one number of an account return with one transaction. -/
def NumbersApart (s : StellarState Op) : Prop :=
  ∀ tx ∈ s.returned, ∀ tx' ∈ s.returned, tx.source = tx'.source → tx.seq = tx'.seq → tx = tx'

section Told
variable {s : StellarState Op}

theorem mem_returned {tx : StellarTx Op} : tx ∈ s.returned ↔ ∃ e ∈ s.ended, e.outcome = .confirmed tx := by
  simp only [StellarState.returned, List.mem_filterMap]
  refine exists_congr fun e => and_congr_right fun _ => ?_
  cases e.outcome <;> simp [SubmitOutcome.hashed]

theorem returned_record (request : SubmitRequest Op) (outcome : SubmitOutcome Op) :
    (s.record request outcome).1.returned = s.returned ++ outcome.hashed.toList := by
  unfold StellarState.returned StellarState.record
  rw [List.filterMap_append]
  cases outcome <;> rfl

theorem Told.returned_landed (h : Told s) {tx : StellarTx Op} (htx : tx ∈ s.returned) : s.Landed tx := by
  obtain ⟨e, he, hconfirmed⟩ := mem_returned.mp htx
  exact (h.landed e he tx hconfirmed).2

theorem Told.hashesLanded (h : Told s) (hash : StellarTx Op → String) : HashesLanded hash s := by
  intro e he digest hresult
  unfold EndedSubmit.result at hresult
  split at hresult
  · next tx hconfirmed =>
    cases hresult
    obtain ⟨hasks, entry, hentry, rfl, hsuccess⟩ := h.landed e he tx hconfirmed
    exact ⟨entry, hentry, rfl, hsuccess, hasks⟩
  all_goals cases hresult

theorem Told.numbersApart (h : Told s) : NumbersApart s := by
  intro tx htx tx' htx' hsource hseq
  obtain ⟨entry, hentry, rfl, -⟩ := h.returned_landed htx
  obtain ⟨entry', hentry', rfl, -⟩ := h.returned_landed htx'
  rw [h.sound.entry_eq hentry hentry' hsource hseq]

end Told

section Runs
variable [DecidableEq Op]

/-- Over every interleaving, a hash that a call returns is of its own transaction, which is in the ledger and succeeded; and
    of the calls that drew one number of an account, no two return with different transactions. -/
theorem returned_hash_landed (hash : StellarTx Op → String) (ops : List (Concurrent.Op (StellarInput Op) StellarReply)) :
    Throughout (submissions Op).step (fun c => HashesLanded hash c.shared ∧ NumbersApart c.shared) ⟨.empty, []⟩
      ops :=
  (told_throughout ops).mono fun _ h => ⟨h.hashesLanded hash, h.numbersApart⟩

end Runs

/-! ### One landing for each return -/

section Counts
variable [DecidableEq Op] {s : StellarState Op} {f : Submitting Op} {answer : StellarAnswer}
  {r : StellarState Op × Option (Submitting Op)} {c c' : Config (StellarState Op) (Submitting Op)}

/-- How often a transaction was returned, whatever its simulations added to it. -/
def StellarState.returns (t : StellarTx Op) (s : StellarState Op) : Nat := (s.returned.map draft).count t

def Submitting.holds (t : StellarTx Op) : Submitting Op → Nat
  | .loadAccount _ _ _ => 0
  | .simulateTransaction _ tx | .sendTransaction _ tx | .getTransaction _ tx _ | .sleep _ tx _ _
  | .submitTransaction _ tx => if draft tx = t then 1 else 0

/-- The returns of a transaction and the calls that hold it are no more than the calls that built it or were handed it. -/
def ReturnsBuilt (c : Config (StellarState Op) (Submitting Op)) : Prop :=
  ∀ t, c.potential (StellarState.returns t) (Submitting.holds t) ≤ c.shared.built.count t

theorem returns_record (t : StellarTx Op) (request : SubmitRequest Op) (outcome : SubmitOutcome Op) :
    (s.record request outcome).1.returns t = s.returns t + (outcome.hashed.toList.map draft).count t := by
  unfold StellarState.returns
  rw [returned_record, List.map_append, List.count_append]

theorem Submitting.Inquires.holds {request : SubmitRequest Op} {tx : StellarTx Op} (h : f.Inquires request tx)
    (t : StellarTx Op) : f.holds t = if draft tx = t then 1 else 0 := by
  cases h <;> rfl

/-- What a step returns or hands on, its call held before, or it has built it. -/
theorem resumed_accounts (hr : SubmitResumed f answer s r) (t : StellarTx Op) :
    r.1.returns t + weight (Submitting.holds t) r.2 + s.built.count t ≤
      s.returns t + f.holds t + r.1.built.count t := by
  cases hr with
  | stays => exact Nat.le_refl _
  | built request signer operation tx sequence f' hload hanswer htx hf' =>
    have hdraft : draft tx = tx := by rw [htx]; rfl
    have hholds : f'.holds t = if tx = t then 1 else 0 := by
      rcases hf' with rfl | rfl <;> simp only [Submitting.holds, hdraft]
    show s.returns t + f'.holds t + s.built.count t ≤ s.returns t + f.holds t + (s.built ++ [tx]).count t
    rw [hholds, List.count_append, List.count_singleton]
    simp only [beq_iff_eq]
    omega
  | assembled request tx resources hsim =>
    subst hsim
    exact Nat.le_refl _
  | sent request tx hsend =>
    subst hsend
    exact Nat.le_refl _
  | unseen request tx deadline seen hpoll =>
    subst hpoll
    exact Nat.le_refl _
  | again request tx deadline polledAt hsleep =>
    subst hsleep
    exact Nat.le_refl _
  | confirmed request tx hinquires =>
    rw [returns_record, hinquires.holds]
    show _ + ([draft tx].count t) + 0 + s.built.count t ≤ _
    rw [List.count_singleton]
    simp only [beq_iff_eq]
    exact Nat.le_refl _
  | timedOut request tx deadline polledAt hsleep =>
    rw [returns_record]
    show s.returns t + 0 + 0 + s.built.count t ≤ s.returns t + f.holds t + s.built.count t
    omega
  | threw outcome hthrew =>
    have hnone : outcome.hashed = none := by
      cases outcome <;> first | rfl | cases hthrew
    rw [returns_record, hnone]
    show s.returns t + 0 + 0 + s.built.count t ≤ s.returns t + f.holds t + s.built.count t
    omega

theorem start_accounts (input : StellarInput Op) (t : StellarTx Op) :
    ((submissions Op).start input s).1.returns t + weight (Submitting.holds t) ((submissions Op).start input s).2 +
        s.built.count t ≤ s.returns t + ((submissions Op).start input s).1.built.count t := by
  cases input with
  | ledger event => exact Nat.le_refl _
  | submit request =>
    cases request with
    | invokeContract signer method operation | submitWithDetail signer label operation => exact Nat.le_refl _
    | submitSignedTx tx | submitSignedAssignment tx =>
      show s.returns t + (if draft tx = t then 1 else 0) + s.built.count t ≤
        s.returns t + (s.built ++ [draft tx]).count t
      rw [List.count_append, List.count_singleton]
      simp only [beq_iff_eq]
      omega

theorem ReturnsBuilt.step {op : Concurrent.Op (StellarInput Op) StellarReply} (hc : ReturnsBuilt c)
    (hstep : (submissions Op).step c op = .ok c') : ReturnsBuilt c' := by
  intro t
  have hle := hc t
  cases step_moved hstep with
  | start input hop hc' =>
    subst hc'
    have hpotential := potential_start (d := StellarState.returns t) (w := Submitting.holds t) (c := c)
      (r := (submissions Op).start input c.shared)
    have haccounts := start_accounts (s := c.shared) input t
    show (Config.after c.calls ((submissions Op).start input c.shared)).potential _ _ ≤
      ((submissions Op).start input c.shared).1.built.count t
    omega
  | resume i reply f rest hop hf hcalls hc' =>
    subst hc'
    have hpotential := potential_resume (d := StellarState.returns t) (w := Submitting.holds t)
      (r := (submissions Op).resume f reply c.shared) hcalls
    have haccounts : ((submissions Op).resume f reply c.shared).1.returns t +
        weight (Submitting.holds t) ((submissions Op).resume f reply c.shared).2 + c.shared.built.count t ≤
        c.shared.returns t + f.holds t + ((submissions Op).resume f reply c.shared).1.built.count t :=
      resumed_accounts (resume_resumed f reply c.shared) t
    show (Config.after rest ((submissions Op).resume f reply c.shared)).potential _ _ ≤
      ((submissions Op).resume f reply c.shared).1.built.count t
    omega
  | crash i f rest hop hcalls hc' =>
    subst hc'
    exact Nat.le_trans (potential_crash_le hcalls) hle

end Counts

section New
variable [DecidableEq Op]

def NewRequest (s : StellarState Op) : StellarInput Op → Prop
  | .submit (.submitSignedTx tx) | .submit (.submitSignedAssignment tx) => draft tx ∉ s.built
  | .submit (.invokeContract _ _ _) | .submit (.submitWithDetail _ _ _) | .ledger _ => True

/-- The transaction that is built is not one that was built or handed in before: an equal operation of the signer with
    the same number and in the same second. -/
def NewBuild (s : StellarState Op) (f : Submitting Op) (reply : StellarReply) : Prop :=
  match f, reply.answer with
  | .loadAccount _ signer operation, .account sequence =>
    buildTx signer sequence reply.now txTimeoutSeconds operation ∉ s.built
  | _, _ => True

instance decidableNewRequest (s : StellarState Op) : (input : StellarInput Op) → Decidable (NewRequest s input)
  | .submit (.submitSignedTx tx) | .submit (.submitSignedAssignment tx) => inferInstanceAs (Decidable (draft tx ∉ s.built))
  | .submit (.invokeContract _ _ _) | .submit (.submitWithDetail _ _ _) | .ledger _ => instDecidableTrue

instance decidableNewBuild (s : StellarState Op) (f : Submitting Op) (reply : StellarReply) :
    Decidable (NewBuild s f reply) := by
  unfold NewBuild
  split <;> infer_instance

theorem newOutline : Outline (submissions Op) NewRequest NewBuild (fun s => s.built.Nodup) (fun _ _ => True)
    fun _ _ => True where
  start input s h hnew := by
    refine ⟨?_, trivial, fun _ _ => trivial⟩
    cases input with
    | ledger event => exact h
    | submit request =>
      cases request with
      | invokeContract signer method operation | submitWithDetail signer label operation => exact h
      | submitSignedTx tx | submitSignedAssignment tx =>
        exact List.nodup_append.mpr ⟨h, List.nodup_singleton _, fun t ht t' ht' heq =>
          hnew (List.mem_singleton.mp ht' ▸ heq ▸ ht)⟩
  resume f reply s h _ hnew := by
    refine ⟨?_, trivial, fun _ _ => trivial⟩
    have hresumed := resume_resumed f reply s
    show (resumeSubmit f reply s).1.built.Nodup
    revert hresumed
    generalize resumeSubmit f reply s = r
    intro hresumed
    cases hresumed with
    | built request signer operation tx sequence f' hload hanswer htx hf' =>
      subst hload htx
      unfold NewBuild at hnew
      rw [hanswer] at hnew
      exact List.nodup_append.mpr ⟨h, List.nodup_singleton _, fun t ht t' ht' heq =>
        hnew (List.mem_singleton.mp ht' ▸ heq ▸ ht)⟩
    | stays | assembled | sent | unseen | again | confirmed | timedOut | threw => exact h
  stable _ _ _ _ _ := trivial

theorem ReturnsBuilt.nodup {c : Config (StellarState Op) (Submitting Op)} (hc : ReturnsBuilt c)
    (hbuilt : c.shared.built.Nodup) : c.shared.returned.Nodup := by
  refine .of_map draft (List.nodup_iff_count_le_one.mpr fun t => ?_)
  exact Nat.le_trans (Nat.le_trans (Nat.le_add_right _ _) (hc t)) (List.nodup_iff_count_le_one.mp hbuilt t)

/-- Where no call builds a transaction that another one has built, and none is handed in twice, each call that returns has
    a landed transaction of its own. -/
theorem returned_apart (ops : List (Concurrent.Op (StellarInput Op) StellarReply))
    (hnew : Along (submissions Op).step (Allows NewRequest NewBuild) ⟨.empty, []⟩ ops) :
    Throughout (submissions Op).step
      (fun c => c.shared.returned.Nodup ∧ ∀ tx ∈ c.shared.returned, c.shared.Landed tx) ⟨.empty, []⟩ ops := by
  have hinvariant : Throughout (submissions Op).step (fun c => ReturnsBuilt c ∧
      Holds (fun s => s.built.Nodup) (fun _ _ => True) c ∧ Holds Told (fun _ => Submitting.Asked) c) ⟨.empty, []⟩ ops := by
    refine throughout_of_along (fun c op c' hc hallows hstep => ⟨hc.1.step hstep, ?_, ?_⟩) ⟨?_, ?_, ?_⟩ hnew
    · exact newOutline.step hc.2.1 hallows hstep
    · exact toldOutline.step hc.2.2 (allows_all (fun _ _ => trivial) (fun _ _ _ => trivial) c op) hstep
    · exact fun _ => Nat.le_refl _
    · exact ⟨List.nodup_nil, fun _ hf => by cases hf⟩
    · exact ⟨.empty, fun _ hf => by cases hf⟩
  exact hinvariant.mono fun c hc => ⟨hc.1.nodup hc.2.1.1, fun tx htx => hc.2.2.1.returned_landed htx⟩

end New

/-! ### One landing for two returns -/

section Shared
variable (signer method : String) (operation : Op) (resources : String) (sequence now : Nat)

/-- Two equal invocations draw one number in one second, and each sends what it has built. -/
def sendEqual : List (Concurrent.Op (StellarInput Op) StellarReply) :=
  [.start (.ledger (.skip signer sequence)), .start (.submit (.invokeContract signer method operation)),
    .start (.submit (.invokeContract signer method operation)), .resume 0 ⟨now, .account sequence⟩,
    .resume 0 ⟨now, .account sequence⟩, .resume 0 ⟨now, .simulated (.ok resources)⟩,
    .resume 0 ⟨now, .simulated (.ok resources)⟩, .resume 0 ⟨now, .sent none⟩, .resume 0 ⟨now, .sent none⟩]

/-- What both send, and what lands of it. -/
def equalTx : StellarTx Op := assembleTransaction (buildTx signer sequence now txTimeoutSeconds operation) resources

def equalEntry : Entry String (TxBody Op) := ⟨equalTx signer operation resources sequence now, now / 1000 + 1, true⟩

def pollEqual : List (Concurrent.Op (StellarInput Op) StellarReply) :=
  [.start (.ledger (.apply (equalEntry signer operation resources sequence now))), .resume 0 ⟨now + 1000, .transaction 1⟩,
    .resume 0 ⟨now + 1000, .transaction 1⟩]

def equalSent : Config (StellarState Op) (Submitting Op) where
  shared := ⟨Ledger.empty.use signer sequence, [],
    List.replicate 2 (buildTx signer sequence now txTimeoutSeconds operation), now⟩
  calls := List.replicate 2 (.getTransaction (.invokeContract signer method operation)
    (equalTx signer operation resources sequence now) (now + pollDeadlineMs))

theorem next_equalEntry : next SequencedLedger.step (Ledger.empty.use signer sequence)
    (.apply (equalEntry signer operation resources sequence now)) =
      (Ledger.empty.use signer sequence).add (equalEntry signer operation resources sequence now) := by
  refine next_of_ok (step_apply (Nat.zero_le _) ?_ (inTime_iff.mpr fun t ht => ?_))
  · exact congrArg (· + 1) (if_pos rfl).symm
  · obtain rfl := Option.some.inj ht
    exact Nat.add_le_add_left (by decide) _

variable [DecidableEq Op]

theorem run_sendEqual : run (submissions Op).step ⟨.empty, []⟩
    (sendEqual signer method operation resources sequence now) =
      equalSent signer method operation resources sequence now := by
  simp only [run, sendEqual, List.foldl_cons, List.foldl_nil, next_start, next_resume_head, submissions, startSubmit,
    Config.after, Option.toList_some, Option.toList_none, List.nil_append, List.append_nil, List.cons_append, resumeSubmit,
    afterLoad, afterSimulation, afterSend]
  rfl

/-- A call that asks for the status of what has landed returns. -/
theorem next_poll_landed (s : StellarState Op) (request : SubmitRequest Op) (tx : StellarTx Op) (deadline seen : Nat)
    (rest : List (Submitting Op)) (hstatus : status (s.ledger.entries.take seen) tx = .success) :
    next (submissions Op).step ⟨s, .getTransaction request tx deadline :: rest⟩ (.resume 0 ⟨now, .transaction seen⟩) =
      ⟨{ s with clock := now, ended := s.ended ++ [⟨request, .confirmed tx⟩] }, rest⟩ := by
  have hresume : resumeSubmit (.getTransaction request tx deadline) ⟨now, .transaction seen⟩ s =
      StellarState.record { s with clock := now } request (.confirmed tx) := by
    unfold resumeSubmit afterPoll
    simp only [hstatus]
  rw [next_resume_head]
  show Config.after rest (resumeSubmit _ _ s) = _
  rw [hresume]
  show Config.mk _ (rest ++ []) = _
  rw [List.append_nil]
  rfl

theorem run_pollEqual : run (submissions Op).step (equalSent signer method operation resources sequence now)
    (pollEqual signer operation resources sequence now) =
      ⟨⟨(Ledger.empty.use signer sequence).add (equalEntry signer operation resources sequence now),
        List.replicate 2 ⟨.invokeContract signer method operation,
          .confirmed (equalTx signer operation resources sequence now)⟩,
        List.replicate 2 (buildTx signer sequence now txTimeoutSeconds operation), now + 1000⟩, []⟩ := by
  have hseen : status [equalEntry signer operation resources sequence now]
      (equalTx signer operation resources sequence now) = .success := by
    simp [status, equalEntry]
  have hpoll (s : StellarState Op) (rest : List (Submitting Op))
      (hs : s.ledger.entries = [equalEntry signer operation resources sequence now]) :=
    next_poll_landed (now + 1000) s (.invokeContract signer method operation)
      (equalTx signer operation resources sequence now) (now + pollDeadlineMs) 1 rest (by rw [hs]; exact hseen)
  have hledger : next (submissions Op).step (equalSent signer method operation resources sequence now)
      (.start (.ledger (.apply (equalEntry signer operation resources sequence now)))) =
        ⟨{ (equalSent signer method operation resources sequence now).shared with
          ledger := (Ledger.empty.use signer sequence).add (equalEntry signer operation resources sequence now) },
          (equalSent signer method operation resources sequence now).calls⟩ := by
    rw [← next_equalEntry]
    rfl
  unfold run pollEqual
  rw [List.foldl_cons, List.foldl_cons, List.foldl_cons, List.foldl_nil, hledger]
  exact (congrArg (next (submissions Op).step · _) (hpoll _ [_] rfl)).trans (hpoll _ [] rfl)

/-- The state when both have asked for the status. -/
def equalReturned : StellarState Op :=
  (run (submissions Op).step ⟨.empty, []⟩ (sendEqual signer method operation resources sequence now ++
    pollEqual signer operation resources sequence now)).shared

/-- Whatever is invoked: two equal invocations at once can both return with the hash of a transaction that has landed
    once. -/
theorem equal_calls_share :
    (equalReturned signer method operation resources sequence now).returned =
        List.replicate 2 (equalTx signer operation resources sequence now) ∧
      (equalReturned signer method operation resources sequence now).ledger.entries =
        [equalEntry signer operation resources sequence now] := by
  unfold equalReturned
  rw [run_append, run_sendEqual, run_pollEqual]
  exact ⟨rfl, rfl⟩

end Shared

section Examples

/-- An invocation from the number it draws to the answer that its transaction is there. -/
def invocation (operation : String) (sequence now seen : Nat) : List (Concurrent.Op (StellarInput String) StellarReply) :=
  [.start (.submit (.invokeContract "platform" "mint" operation)), .resume 0 ⟨now, .account sequence⟩,
    .resume 0 ⟨now, .simulated (.ok "resources")⟩, .resume 0 ⟨now, .sent none⟩,
    .start (.ledger (.apply (equalEntry "platform" operation "resources" sequence now))),
    .resume 0 ⟨now + 2000, .transaction seen⟩]

/-- Two equal mints, the second of which draws its number when the first has landed. -/
theorem returned_apart_in_turn :
    Throughout (submissions String).step
      (fun c => c.shared.returned.Nodup ∧ ∀ tx ∈ c.shared.returned, c.shared.Landed tx) ⟨.empty, []⟩
      (invocation "mint 100" 0 0 1 ++ invocation "mint 100" 1 2000 2) :=
  returned_apart _ (by decide +kernel)

end Examples

end CredBridge.Api
