import CredBridge.Api.DepositStages
import CredBridge.Theorems.MintOnce

/-! # A decided transaction is final

An approval, a payment and a stage of a deposit check the status of the row that they read; a callback checks
nothing. All of them write the status later, without looking again, and a mint that was given up may land later
still. So an approved row can expire, and a rejected one can be minted for. Neither happens where each write finds a
status that nothing has decided, and where a row is closed only when no mint for it is under way: then no mint is ever
pending for a closed row. -/

namespace CredBridge.Api
open Concurrent Machine Result Submission

def ApiState.statusOf (s : ApiState) (id : String) : Option TransactionStatus := (findTransaction s id).map (·.status)

/-- The mints of the row that the ledger has made. -/
def ApiState.mintsOf (s : ApiState) (id : String) : List LedgerTx := s.network.landed.filter (·.isFor id)

def TransactionStatus.closed : TransactionStatus → Bool
  | .completed | .rejected => true
  | _ => false

/-- An approved row does not fail, expire or become rejected later, and a completed or rejected one keeps its status and
    gets no further mint. -/
def Final (s s' : ApiState) : Prop :=
  ∀ id st, s.statusOf id = some st → ∃ st', s'.statusOf id = some st' ∧
    (st = .approved → st' ≠ .failed ∧ st' ≠ .expired ∧ st' ≠ .rejected) ∧
    (st.closed → st' = st ∧ s'.mintsOf id = s.mintsOf id)

section Condition

/-- The status is undecided, or it stays, or an approved deposit is completed. -/
def TransactionStatus.Admits (st new : TransactionStatus) : Prop :=
  st ≠ .approved ∧ st.closed = false ∨ new = st ∨ st = .approved ∧ new = .completed

def NoMintPending (s : ApiState) (id : String) : Prop := ∀ tx ∈ s.network.pending, tx.isFor id = false

/-- The row admits the status now, and it is closed only when no mint for it is pending. -/
def WritesOpen (s : ApiState) (id : String) (new : TransactionStatus) : Prop :=
  ∀ st ∈ s.statusOf id, st.Admits new ∧ (new.closed → NoMintPending s id)

/-- A status is written where the row admits it, and a mint is sent for a row that is not closed. -/
def FindsOpen (s : ApiState) : ApiCall → Reply → Prop
  | .update id u, _ => WritesOpen s id u.status
  | .sendMint id _ _, _ => ∀ st ∈ s.statusOf id, st.closed = false
  | _, _ => True

def CompletesOpen (s : ApiState) : StageCall → Reply → Prop
  | .complete transactionId _, _ => WritesOpen s transactionId .completed
  | _, _ => True

/-- Each call that goes on finds its row open for what it does. -/
def ActsOpen : Config ApiState (ApiCall ⊕ StageCall) → Op (ApiRequest ⊕ StageRequest) Reply → Prop :=
  Allows (fun _ => Sum.elim (fun _ => True) fun _ => True) fun s => Sum.elim (FindsOpen s) (CompletesOpen s)

end Condition

/-! ### What a step does to the rows -/

/-- No mint is pending for a closed row. -/
def Quiet (s : ApiState) : Prop := ∀ id st, s.statusOf id = some st → st.closed → NoMintPending s id

def TransactionStatus.Follows (st st' : TransactionStatus) : Prop :=
  (st = .approved → st' = .approved ∨ st' = .completed) ∧ (st.closed → st' = st)

def Decides (s s' : ApiState) : Prop :=
  ∀ id st, s.statusOf id = some st → ∃ st', s'.statusOf id = some st' ∧ st.Follows st' ∧
    (st.closed → s'.mintsOf id = s.mintsOf id)

section Rows
variable {s s' s'' : ApiState} {id id' : String} {st st' st'' : TransactionStatus}

theorem TransactionStatus.Follows.refl (st : TransactionStatus) : st.Follows st := ⟨.inl, fun _ => rfl⟩

theorem TransactionStatus.Follows.trans (h : st.Follows st') (h' : st'.Follows st'') : st.Follows st'' := by
  refine ⟨fun happroved => ?_, fun hclosed => ?_⟩
  · rcases h.1 happroved with rfl | rfl
    · exact h'.1 rfl
    · exact .inr (h'.2 rfl)
  · obtain rfl := h.2 hclosed
    exact h'.2 hclosed

theorem TransactionStatus.Admits.follows (h : st.Admits st') : st.Follows st' := by
  rcases h with ⟨happroved, hclosed⟩ | rfl | ⟨rfl, rfl⟩
  · exact ⟨fun h => absurd h happroved, fun h => absurd (hclosed.symm.trans h) Bool.false_ne_true⟩
  · exact .refl st'
  · exact ⟨fun _ => .inr rfl, fun h => absurd h Bool.false_ne_true⟩

theorem Decides.refl (s : ApiState) : Decides s s := fun _ st hst => ⟨st, hst, .refl st, fun _ => rfl⟩

theorem Decides.trans (h : Decides s s') (h' : Decides s' s'') : Decides s s'' := by
  intro id st hst
  obtain ⟨st', hst', hfollows, hmints⟩ := h id st hst
  obtain ⟨st'', hst'', hfollows', hmints'⟩ := h' id st' hst'
  refine ⟨st'', hst'', hfollows.trans hfollows', fun hclosed => ?_⟩
  obtain rfl := hfollows.2 hclosed
  exact (hmints' hclosed).trans (hmints hclosed)

theorem Decides.final (h : Decides s s') : Final s s' := by
  intro id st hst
  obtain ⟨st', hst', hfollows, hmints⟩ := h id st hst
  refine ⟨st', hst', fun happroved => ?_, fun hclosed => ⟨hfollows.2 hclosed, hmints hclosed⟩⟩
  rcases hfollows.1 happroved with rfl | rfl <;> simp

theorem statusOf_create {t : Transaction} :
    (s.createTransaction t).statusOf id = (s.statusOf id <|> if t.id = id then some t.status else none) := by
  unfold ApiState.statusOf ApiState.createTransaction findTransaction Table.find
  split
  · next hfound =>
    by_cases hid : t.id = id
    · subst hid
      obtain ⟨r, hr⟩ := Option.isSome_iff_exists.mp hfound
      simp [hr]
    · simp [hid]
  · simp only [List.find?_append, List.find?_singleton]
    cases List.find? (fun r => decide (r.id = id)) s.transactions with
    | none => by_cases hid : t.id = id <;> simp [hid]
    | some r => rfl

theorem statusOf_update {u : TransactionUpdate} :
    (s.updateTransaction id u).statusOf id' = (s.statusOf id').map fun st => if id' = id then u.status else st := by
  have hfind : findTransaction (s.updateTransaction id u) id' =
      (findTransaction s id').map fun r => if r.id = id then r.update u else r := Table.find_modify fun _ h => h
  unfold ApiState.statusOf
  rw [hfind]
  cases h : findTransaction s id' with
  | none => rfl
  | some r =>
    obtain rfl : r.id = id' := Table.key_of_find h
    by_cases hid : r.id = id <;> simp [hid, Transaction.update]

end Rows

section Steps
variable {s s' : ApiState} {id : String}

/-- What is kept of the status and the network of each row. -/
theorem decides_of_statusOf (hs : Quiet s) (hstatus : ∀ id, s'.statusOf id = s.statusOf id)
    (hpending : ∀ id st, s.statusOf id = some st → st.closed → NoMintPending s id → NoMintPending s' id)
    (hmints : ∀ id st, s.statusOf id = some st → st.closed → NoMintPending s id → s'.mintsOf id = s.mintsOf id) :
    Quiet s' ∧ Decides s s' := by
  refine ⟨fun id st hst hclosed => ?_, fun id st hst => ⟨st, (hstatus id).trans hst, .refl st, fun hclosed => ?_⟩⟩
  · rw [hstatus] at hst
    exact hpending id st hst hclosed (hs id st hst hclosed)
  · exact hmints id st hst hclosed (hs id st hst hclosed)

theorem decides_same (hs : Quiet s) (htransactions : s'.transactions = s.transactions)
    (hnetwork : s'.network = s.network) : Quiet s' ∧ Decides s s' := by
  refine decides_of_statusOf hs (fun id => ?_) (fun id _ _ _ hnone => ?_) (fun id _ _ _ _ => ?_)
  · rw [ApiState.statusOf, findTransaction, htransactions]
    rfl
  · rwa [NoMintPending, hnetwork]
  · rw [ApiState.mintsOf, hnetwork]
    rfl

theorem decides_create {t : Transaction} (hs : Quiet s) (ht : t.status.closed = false) :
    Quiet (s.createTransaction t) ∧ Decides s (s.createTransaction t) := by
  have hnetwork : (s.createTransaction t).network = s.network := createTransaction_kept.1
  refine ⟨fun id st hst hclosed => ?_, fun id st hst => ⟨st, ?_, .refl st, fun _ => ?_⟩⟩
  · rw [statusOf_create] at hst
    rw [NoMintPending, hnetwork]
    cases hold : s.statusOf id with
    | some st' =>
      rw [hold] at hst
      cases hst
      exact hs id st hold hclosed
    | none =>
      rw [hold] at hst
      by_cases hid : t.id = id
      · simp only [hid, if_true] at hst
        cases hst
        rw [ht] at hclosed
        cases hclosed
      · simp [hid] at hst
  · rw [statusOf_create, hst]
    rfl
  · rw [ApiState.mintsOf, hnetwork]
    rfl

theorem decides_update {u : TransactionUpdate} (hs : Quiet s) (hopen : WritesOpen s id u.status) :
    Quiet (s.updateTransaction id u) ∧ Decides s (s.updateTransaction id u) := by
  refine ⟨fun id' st' hst' hclosed => ?_, fun id' st hst => ?_⟩
  · obtain ⟨st, hst, rfl⟩ := Option.map_eq_some_iff.mp (statusOf_update ▸ hst')
    by_cases hid : id' = id
    · subst hid
      rw [if_pos rfl] at hclosed
      exact (hopen st hst).2 hclosed
    · rw [if_neg hid] at hclosed
      exact hs id' st hst hclosed
  · refine ⟨if id' = id then u.status else st, by rw [statusOf_update, hst]; rfl, ?_, fun _ => rfl⟩
    split
    · next hid => exact (hopen st (hid ▸ hst)).1.follows
    · exact .refl st

theorem decides_take {tx : LedgerTx} {accepted : Bool} (hs : Quiet s)
    (htx : ∀ id st, s.statusOf id = some st → st.closed → tx.isFor id = false) :
    Quiet { s with network := if accepted then s.network.take tx else s.network } ∧
      Decides s { s with network := if accepted then s.network.take tx else s.network } := by
  cases accepted with
  | false => exact decides_same hs rfl rfl
  | true =>
    refine decides_of_statusOf hs (fun _ => rfl) (fun id st hst hclosed hnone tx' htx' => ?_) (fun id _ _ _ _ => ?_)
    · simp only [if_true, Network.take] at htx'
      split at htx'
      · exact hnone tx' htx'
      · rcases List.mem_append.mp htx' with hold | hnew
        · exact hnone tx' hold
        · rw [List.mem_singleton.mp hnew]
          exact htx id st hst hclosed
    · simp only [ApiState.mintsOf, if_true, Network.take]
      split <;> rfl

/-- A transaction that lands was pending, and so it is for no closed row, or it is somebody else's. -/
theorem decides_settle {settlement : Settlement ClientTx} (hs : Quiet s) :
    Quiet { s with network := s.network.settle (clientSettlement settlement) } ∧
      Decides s { s with network := s.network.settle (clientSettlement settlement) } := by
  refine decides_of_statusOf hs (fun _ => rfl) (fun id st _ _ hnone tx htx => ?_) (fun id st _ _ hnone => ?_)
  · refine hnone tx ?_
    cases settlement with
    | land i | fail i | drop i => exact List.mem_of_mem_eraseIdx htx
    | other t =>
      simp only [clientSettlement, Network.settle] at htx
      split at htx <;> exact htx
  · cases settlement with
    | fail i | drop i => rfl
    | land i =>
      have hlands : s.network.pending[i]?.toList.filter (·.isFor id) = [] := by
        refine List.filter_eq_nil_iff.mpr fun tx htx => ?_
        rw [hnone tx (List.mem_of_getElem? (Option.mem_toList.mp htx))]
        exact Bool.false_ne_true
      simp only [ApiState.mintsOf, clientSettlement, Network.settle, List.filter_append, hlands, List.append_nil]
    | other t =>
      simp only [ApiState.mintsOf, clientSettlement, Network.settle]
      split
      · rfl
      · simp [clientTx, LedgerTx.isFor]

end Steps

/-! ### Every run -/

section Runs

/-- What a call sends on behalf of a user is for no row. -/
def SendsOwn : ApiCall → Prop
  | .sendBurn _ _ tx => tx.onBehalfOf = none
  | _ => True

def StageSendsOwn : StageCall → Prop
  | .send _ _ tx => tx.onBehalfOf = none
  | _ => True

section Outlines
variable {env : StellarEnv} {users : String → Option User} {s s' : ApiState} {call : ApiCall} {next : Option ApiCall}
  {reply : Reply}

theorem started_decides {request : ApiRequest} (hs : Quiet s) (h : Started env users s request s' next) :
    Quiet s' ∧ Decides s s' ∧ ∀ f ∈ next, SendsOwn f := by
  cases h with
  | ended => exact ⟨hs, .refl s, fun f hf => absurd hf (Option.not_mem_none f)⟩
  | createDeposit | createWithdrawal | update | sendMint | withdrawFromPool | recordEvent =>
    refine ⟨hs, .refl s, fun f hf => ?_⟩
    cases hf
    trivial
  | sendBurn userId dto tx htx =>
    refine ⟨hs, .refl s, fun f hf => ?_⟩
    cases hf
    exact prepareWithdrawal_inv htx
  | ledger settlement =>
    exact ⟨(decides_settle hs).1, (decides_settle hs).2, fun f hf => absurd hf (Option.not_mem_none f)⟩

theorem resumed_sendsOwn (hcall : SendsOwn call) (h : Resumed env users s call s' next) : ∀ f ∈ next, SendsOwn f := by
  intro f hf
  cases h with
  | ended | createDeposit | update | orderWithdrawal => cases hf
  | again =>
    cases hf
    exact hcall
  | minted | withdrawn | recordEvent | loadTransaction | burned | createWithdrawal =>
    cases hf
    trivial
  | sendMint | sendBurn =>
    split at hf
    · cases hf
      trivial
    · cases hf
  | dispatch t dto next hnext =>
    cases hf
    rcases dispatchCallback_inv hnext with ⟨toAddress, u, rfl⟩ | ⟨u, rfl⟩ <;> trivial

theorem awaitConfirmation_state {tx : LedgerTx} {again : ApiCall} :
    (awaitConfirmation tx again next reply s).1 = s := by
  unfold awaitConfirmation
  cases pollConfirmation s.network tx reply.deadline <;> rfl

theorem resumeCall_decides (hs : Quiet s) (hcall : SendsOwn call) (hopen : FindsOpen s call reply) :
    Quiet (resumeCall env users call reply s).1 ∧ Decides s (resumeCall env users call reply s).1 := by
  cases call with
  | createDeposit dto => exact decides_create hs rfl
  | update id u => exact decides_update hs hopen
  | sendMint id effect u =>
    refine decides_take hs fun id' st hst hclosed => ?_
    have hne : id ≠ id' := by
      rintro rfl
      exact Bool.false_ne_true ((hopen st hst).symm.trans hclosed)
    simp [LedgerTx.isFor, hne]
  | sendBurn userId dto tx =>
    have hnone : tx.onBehalfOf = none := hcall
    exact decides_take hs fun _ _ _ _ => by simp [LedgerTx.isFor, hnone]
  | awaitMint id tx u =>
    simp only [resumeCall, awaitConfirmation_state]
    exact ⟨hs, .refl s⟩
  | awaitBurn userId dto tx =>
    simp only [resumeCall, awaitConfirmation_state]
    exact ⟨hs, .refl s⟩
  | withdrawFromPool | loadTransaction | updatePixColumns => exact ⟨hs, .refl s⟩
  | recordEvent dto =>
    simp only [resumeCall]
    split
    · exact ⟨hs, .refl s⟩
    · exact decides_same hs rfl rfl
  | createWithdrawal dto =>
    simp only [resumeCall]
    split
    · exact ⟨hs, .refl s⟩
    · exact decides_create hs rfl
  | orderWithdrawal t dto => exact decides_same hs rfl rfl

theorem resumeStage_decides {call : StageCall} (hs : Quiet s) (hcall : StageSendsOwn call)
    (hopen : CompletesOpen s call reply) :
    Quiet (resumeStage call reply s).1 ∧ Decides s (resumeStage call reply s).1 ∧
      ∀ f ∈ (resumeStage call reply s).2, StageSendsOwn f := by
  cases call with
  | send transactionId stage tx =>
    have hnone : tx.onBehalfOf = none := hcall
    have hown : ∀ id st, s.statusOf id = some st → st.closed → tx.isFor id = false := fun _ _ _ _ => by
      simp [LedgerTx.isFor, hnone]
    refine ⟨(decides_take hs hown).1, (decides_take hs hown).2, fun f hf => ?_⟩
    simp only [resumeStage] at hf
    split at hf <;> cases hf
    trivial
  | await transactionId stage tx =>
    simp only [resumeStage]
    cases pollConfirmation s.network tx reply.deadline with
    | confirmed =>
      refine ⟨hs, .refl s, fun f hf => ?_⟩
      simp only at hf
      split at hf <;> cases hf
      trivial
    | failed => exact ⟨hs, .refl s, fun f hf => absurd hf (Option.not_mem_none f)⟩
    | waiting =>
      refine ⟨hs, .refl s, fun f hf => ?_⟩
      cases hf
      trivial
  | complete transactionId hash =>
    have hwrites : WritesOpen s transactionId (TransactionUpdate.mk .completed (some hash) none).status := hopen
    exact ⟨(decides_update hs hwrites).1, (decides_update hs hwrites).2, fun f hf => absurd hf (Option.not_mem_none f)⟩

end Outlines

theorem transactionsApi_open (env : StellarEnv) (users : String → Option User) :
    Outline (transactionsApi env users) (fun _ _ => True) FindsOpen Quiet (fun _ => SendsOwn) Decides where
  start request s hs _ := started_decides hs (startCall_started env users s request)
  resume call reply s hs hcall hopen :=
    have ⟨hquiet, hdecides⟩ := resumeCall_decides hs hcall hopen
    ⟨hquiet, hdecides, resumed_sendsOwn hcall (resumeCall_resumed env users s call reply)⟩
  stable _ _ _ _ hcall := hcall

theorem depositStages_open (env : StellarEnv) (users : String → Option User) :
    Outline (depositStages env users) (fun _ _ => True) CompletesOpen Quiet (fun _ => StageSendsOwn) Decides where
  start request s hs _ := by
    refine ⟨hs, .refl s, fun f hf => ?_⟩
    obtain ⟨transactionId, stage, tx, rfl, hnone⟩ := prepareDepositStage_inv (toOption_eq_some.mp hf)
    exact hnone
  resume call reply s hs hcall hopen := resumeStage_decides hs hcall hopen
  stable _ _ _ _ hcall := hcall

/-- In every run whose calls find their rows open, each state of a row is final for every later one. -/
theorem decided_final_of_acts_open (env : StellarEnv) (users : String → Option User) (transactions : List Transaction)
    (webhookEvents : List String) (pixWithdrawals : List PixWithdrawal)
    (ops : List (Op (ApiRequest ⊕ StageRequest) Reply))
    (hopen : Along (transactionCalls env users).step ActsOpen ⟨⟨transactions, webhookEvents, .empty, pixWithdrawals⟩, []⟩ ops) :
    Onward (transactionCalls env users).step (fun c c' => Final c.shared c'.shared)
      ⟨⟨transactions, webhookEvents, .empty, pixWithdrawals⟩, []⟩ ops := by
  have houtline := (transactionsApi_open env users).sum (depositStages_open env users)
  have hquiet : Quiet ⟨transactions, webhookEvents, .empty, pixWithdrawals⟩ := fun _ _ _ _ => List.forall_mem_nil _
  have hdecides := houtline.onward .refl (fun _ _ _ => .trans) ⟨hquiet, List.forall_mem_nil _⟩ hopen
  exact hdecides.mono fun _ _ h => h.final

section Examples

instance (st new : TransactionStatus) : Decidable (st.Admits new) := inferInstanceAs (Decidable (_ ∨ _))

instance (s : ApiState) (id : String) : Decidable (NoMintPending s id) :=
  inferInstanceAs (Decidable (∀ tx ∈ s.network.pending, _))

instance (s : ApiState) (id : String) (new : TransactionStatus) : Decidable (WritesOpen s id new) :=
  inferInstanceAs (Decidable (∀ st ∈ s.statusOf id, st.Admits new ∧ (new.closed → NoMintPending s id)))

instance (s : ApiState) : (call : ApiCall) → (reply : Reply) → Decidable (FindsOpen s call reply)
  | .update id u, _ => inferInstanceAs (Decidable (WritesOpen s id u.status))
  | .sendMint id _ _, _ => inferInstanceAs (Decidable (∀ st ∈ s.statusOf id, st.closed = false))
  | .createDeposit _, _ | .awaitMint _ _ _, _ | .withdrawFromPool _ _, _ | .recordEvent _, _ | .loadTransaction _, _
  | .updatePixColumns _ _, _ | .sendBurn _ _ _, _ | .awaitBurn _ _ _, _ | .createWithdrawal _, _
  | .orderWithdrawal _ _, _ => instDecidableTrue

instance (s : ApiState) : (call : StageCall) → (reply : Reply) → Decidable (CompletesOpen s call reply)
  | .complete transactionId _, _ => inferInstanceAs (Decidable (WritesOpen s transactionId .completed))
  | .send _ _ _, _ | .await _ _ _, _ => instDecidableTrue

instance (c : Config ApiState (ApiCall ⊕ StageCall)) :
    (op : Op (ApiRequest ⊕ StageRequest) Reply) → Decidable (ActsOpen c op)
  | .start (.inl _) | .start (.inr _) | .crash _ => instDecidableTrue
  | .resume i reply =>
    inferInstanceAs (Decidable (∀ f ∈ c.calls[i]?, Sum.elim (FindsOpen c.shared) (CompletesOpen c.shared) f reply))

def stageStellar : StellarEnv :=
  { testStellar with
    fromXDR xdr := if xdr = "deposit" then some ⟨"deposit-hash", .other⟩ else none
    verify address hash signatureHex := address = "GINVESTOR" ∧ hash = "deposit-hash" ∧ signatureHex = "signature" }

def callback (eventId status : String) (replies : List Reply) : List (Op ApiRequest Reply) :=
  .start (.processPixOrderCallback ⟨eventId, "deposit", "DEPOSIT", status, 100⟩) ::
    (List.replicate 3 ({} : Reply) ++ replies).map (.resume 0)

def confirmed : List (Op ApiRequest Reply) :=
  callback "confirmed" "CONFIRMED" [{ txHash := "mint" }] ++ [.start (.ledger (.land 0)), .resume 0 {}, .resume 0 {}]

/-- A deposit that has expired is confirmed, and then put into the pool. -/
theorem decided_final_of_acts_open_late :
    Onward (transactionCalls stageStellar testUsers).step (fun c c' => Final c.shared c'.shared)
      ⟨⟨[], [], .empty, []⟩, []⟩
      ((paidDeposit ++ callback "expired" "EXPIRED" [{}] ++ confirmed).map .inl ++
        [.start (.inr ⟨"deposit", "investor", .deposit, "deposit", "signature"⟩), .resume 0 {},
          .start (.inl (.ledger (.land 0))), .resume 0 {}, .resume 0 {}]) :=
  decided_final_of_acts_open stageStellar testUsers [] [] [] _ (by decide +kernel)

def rejection : List (Op ApiRequest Reply) := [.start (.approveTransaction "deposit" "admin" "REJECTED"), .resume 0 {}]

/-- A deposit expires after it was approved, and another one is minted for after it was rejected. -/
theorem decided_not_final :
    ¬Onward (transactionCalls stageStellar testUsers).step (fun c c' => Final c.shared c'.shared)
        ⟨⟨[], [], .empty, []⟩, []⟩ ((paidDeposit ++ confirmed).map .inl ++ (callback "expired" "EXPIRED" [{}]).map .inl) ∧
      ¬Onward (transactionCalls stageStellar testUsers).step (fun c c' => Final c.shared c'.shared)
        ⟨⟨[], [], .empty, []⟩, []⟩ ((paidDeposit ++ rejection).map .inl ++ confirmed.map .inl) := by
  constructor
  · intro h
    obtain ⟨st, hst, happroved, -⟩ := h.rel "deposit" .approved (by decide +kernel)
    have hexpired : st = .expired := Option.some.inj (hst.symm.trans (by decide +kernel))
    exact (happroved rfl).2.1 hexpired
  · intro h
    obtain ⟨st, -, -, hclosed⟩ := h.rel "deposit" .rejected (by decide +kernel)
    exact absurd (hclosed rfl).2 (by decide +kernel)

end Examples
end Runs
end CredBridge.Api
