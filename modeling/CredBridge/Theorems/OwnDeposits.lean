import CredBridge.Theorems.DecidedTransactions

/-! # A deposit is completed by its own transaction

The stage that completes a deposit waits for whatever transaction its client signed: neither what the transaction does
nor whether another deposit was completed by it is looked at. Each deposit is completed by its own transaction, and by one
that completes no other, where every submission of that stage carries the deposit that the pool takes for its row, and one
that no submission for another row carried. Submissions and completions are recorded beside the state. -/

namespace CredBridge.Api
open Concurrent Machine Result Submission

/-- A call of the pool's `deposit`. -/
structure PoolDeposit where
  investor : String
  amount : Int
deriving DecidableEq

inductive StageRecord where
  | submitted (transactionId hash : String)
  | completed (transactionId hash : String)
deriving DecidableEq

section Deposits
variable (env : StellarEnv) (users : String → Option User) (poolDeposit : (hash : String) → Option PoolDeposit)

/-- The deposit that `buildDepositTx` makes for a row: that of the wallet of its user, of its amount. -/
def buildDepositTx (s : ApiState) (transactionId : String) : Option PoolDeposit := do
  let t ← findTransaction s transactionId
  let investorAddress ← walletOf users t.userId
  pure ⟨investorAddress, env.stroops t.amount⟩

/-- The transaction with this hash makes the row's own deposit; `poolDeposit` is what a transaction does, by its hash. -/
def OwnDeposit (s : ApiState) (transactionId hash : String) : Prop :=
  (buildDepositTx env users s transactionId).isSome = true ∧ poolDeposit hash = buildDepositTx env users s transactionId

/-- The row and the hash of a submission that passes the checks and is to complete its row. -/
def stageSubmission (s : ApiState) (request : StageRequest) : Option (String × String) :=
  match prepareDepositStage env users s request with
  | .ok (.send transactionId .deposit tx) => some (transactionId, tx.hash)
  | _ => none

/-- Everything that writes rows of `Transaction`, with the submissions and the completions of deposits. -/
def recordingCalls : Handler (ApiState × List StageRecord) (ApiCall ⊕ StageCall) (ApiRequest ⊕ StageRequest) Reply :=
  (transactionCalls env users).recording
    (fun request s => match request with
      | .inl _ => []
      | .inr request => ((stageSubmission env users s request).map fun r => .submitted r.1 r.2).toList)
    (fun call _ _ => match call with
      | .inr (.complete transactionId hash) => [.completed transactionId hash]
      | _ => [])

/-- Each deposit was completed by a transaction on the ledger that is the pool's deposit of its user and its amount, and no
    transaction completed two of them. -/
structure CompletedOwn (s : ApiState × List StageRecord) : Prop where
  own : ∀ transactionId hash, .completed transactionId hash ∈ s.2 →
    (∃ tx ∈ s.1.network.landed, tx.hash = hash) ∧ OwnDeposit env users poolDeposit s.1 transactionId hash
  once : ∀ transactionId transactionId' hash, .completed transactionId hash ∈ s.2 →
    .completed transactionId' hash ∈ s.2 → transactionId = transactionId'

/-- A submission that is to complete a row carries the row's own deposit, and no submission for another row carried it. -/
def SubmitsOwn (s : ApiState × List StageRecord) (request : StageRequest) : Prop :=
  ∀ r ∈ stageSubmission env users s.1 request, OwnDeposit env users poolDeposit s.1 r.1 r.2 ∧
    ∀ record ∈ s.2, ∀ transactionId, record = .submitted transactionId r.2 → transactionId = r.1

end Deposits

/-! ### What a step keeps -/

/-- The rows keep their users and amounts, what has landed stays, and so do the records. -/
structure KeepsDeposits (s s' : ApiState × List StageRecord) : Prop where
  rows : ∀ id t, findTransaction s.1 id = some t →
    ∃ t', findTransaction s'.1 id = some t' ∧ t'.userId = t.userId ∧ t'.amount = t.amount
  landed : s.1.network.landed ⊆ s'.1.network.landed
  records : s.2 ⊆ s'.2

section Keeps
variable {env : StellarEnv} {users : String → Option User} {poolDeposit : String → Option PoolDeposit}
  {s s' : ApiState} {records records' : List StageRecord} {transactionId hash : String}

theorem keepsDeposits_of_eq (htransactions : s'.transactions = s.transactions)
    (hlanded : s.network.landed ⊆ s'.network.landed) (hrecords : records ⊆ records') :
    KeepsDeposits (s, records) (s', records') := by
  refine ⟨fun id t ht => ⟨t, ?_, rfl, rfl⟩, hlanded, hrecords⟩
  show Table.find Transaction.id id s'.transactions = some t
  rwa [htransactions]

theorem keepsDeposits_create (t : Transaction) : KeepsDeposits (s, records) (s.createTransaction t, records) := by
  refine ⟨fun id t' ht' => ⟨t', ?_, rfl, rfl⟩, ?_, List.Subset.refl _⟩
  · unfold ApiState.createTransaction
    split
    · exact ht'
    · exact Table.find_append ht'
  · rw [createTransaction_kept.1]
    exact List.Subset.refl _

theorem keepsDeposits_update (u : TransactionUpdate) (hrecords : records ⊆ records') :
    KeepsDeposits (s, records) (s.updateTransaction transactionId u, records') := by
  refine ⟨fun id t ht => ⟨if t.id = transactionId then t.update u else t, ?_, ?_, ?_⟩, List.Subset.refl _, hrecords⟩
  · have hfind : findTransaction (s.updateTransaction transactionId u) id =
        (findTransaction s id).map fun r => if r.id = transactionId then r.update u else r :=
      Table.find_modify fun _ h => h
    rw [hfind, ht]
    rfl
  · split <;> rfl
  · split <;> rfl

theorem keepsDeposits_take (tx : LedgerTx) (accepted : Bool) :
    KeepsDeposits (s, records)
      ({ s with network := if accepted then s.network.take tx else s.network }, records) := by
  refine keepsDeposits_of_eq rfl (fun t ht => ?_) (List.Subset.refl _)
  cases accepted with
  | false => exact ht
  | true => exact mem_landed_take.mpr ht

theorem OwnDeposit.keeps (h : OwnDeposit env users poolDeposit s transactionId hash)
    (hkeeps : KeepsDeposits (s, records) (s', records')) : OwnDeposit env users poolDeposit s' transactionId hash := by
  have hsame : buildDepositTx env users s' transactionId = buildDepositTx env users s transactionId := by
    obtain ⟨deposit, hdeposit⟩ := Option.isSome_iff_exists.mp h.1
    obtain ⟨t, ht, -⟩ := Option.bind_eq_some_iff.mp hdeposit
    obtain ⟨t', ht', huserId, hamount⟩ := hkeeps.rows transactionId t ht
    unfold buildDepositTx
    rw [ht', ht]
    show ((walletOf users t'.userId).bind fun address => some (PoolDeposit.mk address (env.stroops t'.amount))) =
      (walletOf users t.userId).bind fun address => some (PoolDeposit.mk address (env.stroops t.amount))
    rw [huserId, hamount]
  unfold OwnDeposit
  rw [hsame]
  exact h

theorem started_keepsDeposits {request : ApiRequest} {next : Option ApiCall} (h : Started env users s request s' next) :
    KeepsDeposits (s, records) (s', records) := by
  cases h with
  | ledger settlement => exact keepsDeposits_of_eq rfl (landed_subset_settle _) (List.Subset.refl _)
  | _ => exact keepsDeposits_of_eq rfl (List.Subset.refl _) (List.Subset.refl _)

theorem resumed_keepsDeposits {call : ApiCall} {next : Option ApiCall} (h : Resumed env users s call s' next) :
    KeepsDeposits (s, records) (s', records) := by
  cases h with
  | createDeposit dto t | createWithdrawal dto t => exact keepsDeposits_create t
  | update id u => exact keepsDeposits_update u (List.Subset.refl _)
  | sendMint id effect u reply => exact keepsDeposits_take _ _
  | sendBurn userId dto tx reply => exact keepsDeposits_take _ _
  | _ => exact keepsDeposits_of_eq rfl (List.Subset.refl _) (List.Subset.refl _)

end Keeps

/-! ### Every run -/

/-- What was submitted is the row's own, one submission's hash names one row, and what was completed was submitted and has
    landed. -/
structure DepositsRecorded (env : StellarEnv) (users : String → Option User) (poolDeposit : String → Option PoolDeposit)
    (s : ApiState × List StageRecord) : Prop where
  own : ∀ transactionId hash, .submitted transactionId hash ∈ s.2 →
    OwnDeposit env users poolDeposit s.1 transactionId hash
  one : ∀ transactionId transactionId' hash, .submitted transactionId hash ∈ s.2 →
    .submitted transactionId' hash ∈ s.2 → transactionId = transactionId'
  completed : ∀ transactionId hash, .completed transactionId hash ∈ s.2 →
    .submitted transactionId hash ∈ s.2 ∧ ∃ tx ∈ s.1.network.landed, tx.hash = hash

/-- A call that is to complete a row has its submission recorded, and completes it once its transaction has landed. -/
def StageCall.Submitted (s : ApiState × List StageRecord) : StageCall → Prop
  | .send transactionId .deposit tx | .await transactionId .deposit tx => .submitted transactionId tx.hash ∈ s.2
  | .complete transactionId hash => .submitted transactionId hash ∈ s.2 ∧ ∃ tx ∈ s.1.network.landed, tx.hash = hash
  | .send _ .approve _ | .await _ .approve _ => True

section Runs
variable {env : StellarEnv} {users : String → Option User} {poolDeposit : String → Option PoolDeposit}
  {s s' : ApiState × List StageRecord}

theorem DepositsRecorded.completedOwn (h : DepositsRecorded env users poolDeposit s) :
    CompletedOwn env users poolDeposit s where
  own transactionId hash hcompleted :=
    have ⟨hsubmitted, hlanded⟩ := h.completed transactionId hash hcompleted
    ⟨hlanded, h.own transactionId hash hsubmitted⟩
  once transactionId transactionId' hash hcompleted hcompleted' :=
    h.one transactionId transactionId' hash (h.completed transactionId hash hcompleted).1
      (h.completed transactionId' hash hcompleted').1

/-- A step that records nothing new keeps what is recorded. -/
theorem DepositsRecorded.keeps (h : DepositsRecorded env users poolDeposit s) (hkeeps : KeepsDeposits s s')
    (hrecords : s'.2 = s.2) : DepositsRecorded env users poolDeposit s' := by
  refine ⟨?_, ?_, ?_⟩ <;> rw [hrecords]
  · exact fun transactionId hash hsubmitted => (h.own transactionId hash hsubmitted).keeps hkeeps
  · exact h.one
  · intro transactionId hash hcompleted
    obtain ⟨hsubmitted, tx, htx, hhash⟩ := h.completed transactionId hash hcompleted
    exact ⟨hsubmitted, tx, hkeeps.landed htx, hhash⟩

theorem StageCall.Submitted.keeps {call : StageCall} (h : call.Submitted s) (hkeeps : KeepsDeposits s s') :
    call.Submitted s' := by
  cases call with
  | send transactionId stage tx | await transactionId stage tx =>
    cases stage with
    | approve => trivial
    | deposit => exact hkeeps.records h
  | complete transactionId hash =>
    obtain ⟨hsubmitted, tx, htx, hhash⟩ := h
    exact ⟨hkeeps.records hsubmitted, tx, hkeeps.landed htx, hhash⟩

/-- A submission that passes the checks, recorded. -/
theorem DepositsRecorded.submitted (h : DepositsRecorded env users poolDeposit s) {transactionId hash : String}
    (hown : OwnDeposit env users poolDeposit s.1 transactionId hash)
    (hone : ∀ record ∈ s.2, ∀ transactionId', record = .submitted transactionId' hash → transactionId' = transactionId) :
    DepositsRecorded env users poolDeposit (s.1, s.2 ++ [.submitted transactionId hash]) := by
  have hcases : ∀ {id' hash'}, StageRecord.submitted id' hash' ∈ s.2 ++ [.submitted transactionId hash] →
      .submitted id' hash' ∈ s.2 ∨ id' = transactionId ∧ hash' = hash := by
    intro id' hash' hmem
    rcases List.mem_append.mp hmem with hmem | hmem
    · exact .inl hmem
    · cases List.mem_singleton.mp hmem
      exact .inr ⟨rfl, rfl⟩
  refine ⟨fun id' hash' hmem => ?_, fun id₁ id₂ hash' h₁ h₂ => ?_, fun id' hash' hmem => ?_⟩
  · rcases hcases hmem with hold | ⟨rfl, rfl⟩
    · exact h.own id' hash' hold
    · exact hown
  · rcases hcases h₁ with h₁ | ⟨rfl, rfl⟩ <;> rcases hcases h₂ with h₂ | ⟨hid, hhash⟩
    · exact h.one id₁ id₂ hash' h₁ h₂
    · rw [hid]
      exact hone _ (hhash ▸ h₁) id₁ rfl
    · exact (hone _ h₂ id₂ rfl).symm
    · exact hid.symm
  · rcases List.mem_append.mp hmem with hmem | hmem
    · obtain ⟨hsubmitted, hlanded⟩ := h.completed id' hash' hmem
      exact ⟨List.mem_append_left _ hsubmitted, hlanded⟩
    · cases List.mem_singleton.mp hmem

/-- A completion, recorded. -/
theorem DepositsRecorded.complete (h : DepositsRecorded env users poolDeposit s) {transactionId hash : String}
    (hsubmitted : .submitted transactionId hash ∈ s.2) (hlanded : ∃ tx ∈ s.1.network.landed, tx.hash = hash) :
    DepositsRecorded env users poolDeposit (s.1, s.2 ++ [.completed transactionId hash]) := by
  have hold : ∀ {id' hash'}, StageRecord.submitted id' hash' ∈ s.2 ++ [.completed transactionId hash] →
      .submitted id' hash' ∈ s.2 := by
    intro id' hash' hmem
    rcases List.mem_append.mp hmem with hmem | hmem
    · exact hmem
    · cases List.mem_singleton.mp hmem
  refine ⟨fun id' hash' hmem => h.own id' hash' (hold hmem), fun id₁ id₂ hash' h₁ h₂ =>
    h.one id₁ id₂ hash' (hold h₁) (hold h₂), fun id' hash' hmem => ?_⟩
  rcases List.mem_append.mp hmem with hmem | hmem
  · obtain ⟨hsubmitted', hlanded'⟩ := h.completed id' hash' hmem
    exact ⟨List.mem_append_left _ hsubmitted', hlanded'⟩
  · cases List.mem_singleton.mp hmem
    exact ⟨List.mem_append_left _ hsubmitted, hlanded⟩

/-- A submission that is to complete a row starts with its record. -/
theorem stageSubmission_eq_some {s : ApiState} {request : StageRequest} {transactionId hash : String} :
    stageSubmission env users s request = some (transactionId, hash) ↔
      ∃ tx, prepareDepositStage env users s request = .ok (.send transactionId .deposit tx) ∧ tx.hash = hash := by
  unfold stageSubmission
  constructor
  · intro h
    split at h
    · next tx hprepare =>
      cases h
      exact ⟨tx, hprepare, rfl⟩
    · cases h
  · rintro ⟨tx, hprepare, rfl⟩
    rw [hprepare]

theorem resumeStage_submitted {call : StageCall} (reply : Reply) (h : call.Submitted s) :
    KeepsDeposits s ((resumeStage call reply s.1).1, s.2) ∧
      ∀ next ∈ (resumeStage call reply s.1).2, next.Submitted ((resumeStage call reply s.1).1, s.2) := by
  cases call with
  | send transactionId stage tx =>
    have hkeeps : KeepsDeposits s ((resumeStage (.send transactionId stage tx) reply s.1).1, s.2) :=
      keepsDeposits_take tx reply.accepted
    refine ⟨hkeeps, fun next hnext => ?_⟩
    simp only [resumeStage] at hnext
    split at hnext <;> cases hnext
    cases stage with
    | approve => trivial
    | deposit => exact h
  | await transactionId stage tx =>
    have hkeeps : KeepsDeposits s (s.1, s.2) := keepsDeposits_of_eq rfl (List.Subset.refl _) (List.Subset.refl _)
    simp only [resumeStage]
    cases hpoll : pollConfirmation s.1.network tx reply.deadline with
    | confirmed =>
      refine ⟨hkeeps, fun next hnext => ?_⟩
      cases stage with
      | approve => cases hnext
      | deposit =>
        cases hnext
        exact ⟨h, tx, pollConfirmation_eq_confirmed.mp hpoll, rfl⟩
    | failed => exact ⟨hkeeps, fun next hnext => by cases hnext⟩
    | waiting =>
      refine ⟨hkeeps, fun next hnext => ?_⟩
      cases hnext
      exact h.keeps hkeeps
  | complete transactionId hash =>
    refine ⟨keepsDeposits_update _ (List.Subset.refl _), fun next hnext => ?_⟩
    cases hnext

theorem KeepsDeposits.append (h : KeepsDeposits s s') (records : List StageRecord) :
    KeepsDeposits s (s'.1, s'.2 ++ records) :=
  ⟨h.rows, h.landed, List.Subset.trans h.records (List.subset_append_left _ _)⟩

theorem startStage_recorded {request : StageRequest} (h : DepositsRecorded env users poolDeposit s)
    (hown : SubmitsOwn env users poolDeposit s request) :
    DepositsRecorded env users poolDeposit (s.1, s.2 ++
        ((stageSubmission env users s.1 request).map fun r => .submitted r.1 r.2).toList) ∧
      ∀ call ∈ (prepareDepositStage env users s.1 request).toOption, call.Submitted (s.1, s.2 ++
        ((stageSubmission env users s.1 request).map fun r => StageRecord.submitted r.1 r.2).toList) := by
  cases hsubmission : stageSubmission env users s.1 request with
  | none =>
    refine ⟨by simpa using h, fun call hcall => ?_⟩
    obtain ⟨transactionId, stage, tx, rfl, -⟩ := prepareDepositStage_inv (toOption_eq_some.mp hcall)
    cases stage with
    | approve => trivial
    | deposit =>
      have hsome := stageSubmission_eq_some.mpr ⟨tx, toOption_eq_some.mp hcall, rfl⟩
      cases hsubmission.symm.trans hsome
  | some r =>
    obtain ⟨hrow, hone⟩ := hown r hsubmission
    refine ⟨h.submitted hrow hone, fun call hcall => ?_⟩
    obtain ⟨tx, hprepare, hhash⟩ := stageSubmission_eq_some.mp hsubmission
    cases (toOption_eq_some.mp hcall).symm.trans hprepare
    show StageRecord.submitted r.1 tx.hash ∈ s.2 ++ [.submitted r.1 r.2]
    rw [hhash]
    exact List.mem_append_right _ (List.mem_singleton_self _)

theorem recordingCalls_outline (env : StellarEnv) (users : String → Option User)
    (poolDeposit : String → Option PoolDeposit) :
    Outline (recordingCalls env users) (fun s => Sum.elim (fun _ => True) (SubmitsOwn env users poolDeposit s))
      (fun _ _ _ => True) (DepositsRecorded env users poolDeposit)
      (fun s => Sum.elim (fun _ => True) (StageCall.Submitted s)) KeepsDeposits where
  start request s hs hS := by
    cases request with
    | inl request =>
      have hkeeps : KeepsDeposits s ((startCall env users request s.1).1, s.2 ++ []) :=
        (started_keepsDeposits (startCall_started env users s.1 request)).append []
      refine ⟨hs.keeps hkeeps (List.append_nil _), hkeeps, fun call hcall => ?_⟩
      obtain ⟨f, -, rfl⟩ := Option.map_eq_some_iff.mp hcall
      trivial
    | inr request =>
      obtain ⟨hrecorded, hcalls⟩ := startStage_recorded hs hS
      refine ⟨hrecorded, ⟨fun id t ht => ⟨t, ht, rfl, rfl⟩, List.Subset.refl _, List.subset_append_left _ _⟩,
        fun call hcall => ?_⟩
      obtain ⟨f, hf, rfl⟩ := Option.map_eq_some_iff.mp hcall
      exact hcalls f hf
  resume call reply s hs hcall _ := by
    cases call with
    | inl call =>
      have hkeeps : KeepsDeposits s ((resumeCall env users call reply s.1).1, s.2 ++ []) :=
        (resumed_keepsDeposits (resumeCall_resumed env users s.1 call reply)).append []
      refine ⟨hs.keeps hkeeps (List.append_nil _), hkeeps, fun next hnext => ?_⟩
      obtain ⟨f, -, rfl⟩ := Option.map_eq_some_iff.mp hnext
      trivial
    | inr call =>
      obtain ⟨hkeeps, hnexts⟩ := resumeStage_submitted reply hcall
      cases call with
      | send transactionId stage tx | await transactionId stage tx =>
        refine ⟨hs.keeps (hkeeps.append []) (List.append_nil _), hkeeps.append [], fun next hnext => ?_⟩
        obtain ⟨f, hf, rfl⟩ := Option.map_eq_some_iff.mp hnext
        exact (hnexts f hf).keeps ⟨fun id t ht => ⟨t, ht, rfl, rfl⟩, List.Subset.refl _, List.subset_append_left _ _⟩
      | complete transactionId hash =>
        refine ⟨?_, hkeeps.append [.completed transactionId hash],
          fun next hnext => absurd hnext (Option.not_mem_none next)⟩
        obtain ⟨hsubmitted, hlanded⟩ := hcall
        exact (hs.keeps hkeeps rfl).complete hsubmitted hlanded
  stable s s' call hkeeps hcall := by
    cases call with
    | inl call => trivial
    | inr call => exact StageCall.Submitted.keeps hcall hkeeps

/-- In every run whose submissions carry their rows' own deposits, and one row's each, the completed deposits are completed
    by their own transactions, and by one each. -/
theorem completedOwn_of_submitsOwn (env : StellarEnv) (users : String → Option User)
    (poolDeposit : String → Option PoolDeposit) (transactions : List Transaction) (webhookEvents : List String)
    (pixWithdrawals : List PixWithdrawal) (ops : List (Op (ApiRequest ⊕ StageRequest) Reply))
    (hown : Along (recordingCalls env users).step
      (Allows (fun s => Sum.elim (fun _ => True) (SubmitsOwn env users poolDeposit s)) fun _ _ _ => True)
      ⟨(⟨transactions, webhookEvents, .empty, pixWithdrawals⟩, []), []⟩ ops) :
    Throughout (recordingCalls env users).step (fun c => CompletedOwn env users poolDeposit c.shared)
      ⟨(⟨transactions, webhookEvents, .empty, pixWithdrawals⟩, []), []⟩ ops := by
  have hstart : DepositsRecorded env users poolDeposit (⟨transactions, webhookEvents, .empty, pixWithdrawals⟩, []) :=
    ⟨nofun, nofun, nofun⟩
  have hthroughout := (recordingCalls_outline env users poolDeposit).throughout ⟨hstart, List.forall_mem_nil _⟩ hown
  exact hthroughout.mono fun _ hc => hc.1.completedOwn

end Runs

section Examples

/-- The transaction that the investor signs in this setting is the deposit of 100 BRLT. -/
def stageDeposit (hash : String) : Option PoolDeposit :=
  if hash = "deposit-hash" then some ⟨"GINVESTOR", 1000000000⟩ else none

def approvedDeposit (id : String) : Transaction := ⟨id, "investor", .deposit, 100, .approved, none, none, none⟩

def depositStage (id : String) (sent : Reply) : List (Op (ApiRequest ⊕ StageRequest) Reply) :=
  [.start (.inr ⟨id, "investor", .deposit, "deposit", "signature"⟩), .resume 0 sent, .start (.inl (.ledger (.land 0))),
    .resume 0 {}, .resume 0 {}]

theorem completedOwn_deposit :
    Throughout (recordingCalls stageStellar testUsers).step
      (fun c => CompletedOwn stageStellar testUsers stageDeposit c.shared)
      ⟨(⟨[approvedDeposit "deposit"], [], .empty, []⟩, []), []⟩ (depositStage "deposit" {}) := by
  refine completedOwn_of_submitsOwn stageStellar testUsers stageDeposit [approvedDeposit "deposit"] [] [] _
    ⟨fun r hr => ?_, fun _ _ => trivial, trivial, fun _ _ => trivial, fun _ _ => trivial, trivial⟩
  have hsubmission : stageSubmission stageStellar testUsers ⟨[approvedDeposit "deposit"], [], .empty, []⟩
      ⟨"deposit", "investor", .deposit, "deposit", "signature"⟩ = some ("deposit", "deposit-hash") := by decide +kernel
  obtain rfl := Option.some.inj (hsubmission.symm.trans hr)
  exact ⟨⟨by decide +kernel, by decide +kernel⟩, List.forall_mem_nil _⟩

/-- A deposit is completed by a transaction that is no deposit of the pool, and two are completed by one transaction. -/
theorem completed_by_other :
    ¬Throughout (recordingCalls stageStellar testUsers).step
        (fun c => CompletedOwn stageStellar testUsers (fun _ => none) c.shared)
        ⟨(⟨[approvedDeposit "deposit"], [], .empty, []⟩, []), []⟩ (depositStage "deposit" {}) ∧
      ¬Throughout (recordingCalls stageStellar testUsers).step
        (fun c => CompletedOwn stageStellar testUsers stageDeposit c.shared)
        ⟨(⟨[approvedDeposit "deposit", approvedDeposit "second"], [], .empty, []⟩, []), []⟩
        (depositStage "deposit" {} ++ depositStage "second" { accepted := false }) := by
  constructor
  · intro h
    have hown := (h.last.own "deposit" "deposit-hash" (by decide +kernel)).2.2
    exact absurd hown (by decide +kernel)
  · intro h
    have hone := h.last.once "deposit" "second" "deposit-hash" (by decide +kernel) (by decide +kernel)
    exact absurd hone (by decide)

end Examples
end CredBridge.Api
