import CredBridge.Api.Transactions

/-! # BRLT is minted once for a deposit

Two calls mint for a row of `Transaction`: an approval, which asks for a pending status, and a confirmed
callback, which asks for nothing. Both mint before they write the status, and a mint that is given up may still
land. So a second mint is kept away only where a call that is about to mint is the first one to be for its row:
the invariant is that the mints of a row that are live and the calls that are still to send one are at most one
together. -/

namespace CredBridge.Api
open Concurrent Machine Result Submission

def LedgerTx.isFor (id : String) (tx : LedgerTx) : Bool := tx.onBehalfOf = some id

def LedgerTx.minted (tx : LedgerTx) : Int :=
  match tx.effect with
  | .mint _ amount => amount
  | _ => 0

def ApiState.minted (s : ApiState) (id : String) : Int := ((s.network.landed.filter (·.isFor id)).map (·.minted)).sum

/-- For every row, nothing was minted, or it is a deposit and exactly its amount was. -/
def MintedOnce (env : StellarEnv) (s : ApiState) : Prop :=
  ∀ id, s.minted id = 0 ∨
    ∃ t ∈ findTransaction s id, t.type = .deposit ∧ s.minted id = env.stroops t.amount

def ApiState.mints (id : String) (s : ApiState) : Nat := s.network.live.countP (·.isFor id)

def ApiCall.target : ApiCall → Option String
  | .sendMint id _ _ => some id
  | _ => none

section Condition
variable (env : StellarEnv) (users : String → Option User)

/-- The call will send a mint for the row. -/
def ApiCall.minting (id : String) : ApiCall → Nat
  | .sendMint id' _ _ => if id' = id then 1 else 0
  | .updatePixColumns t dto => if (dispatchCallback env users t dto).bind ApiCall.target = some id then 1 else 0
  | _ => 0

def NoMint (c : Config ApiState ApiCall) (id : String) : Prop :=
  c.potential (ApiState.mints id) (ApiCall.minting env users id) = 0

/-- A callback that loads a row and will mint is for a deposit, with its amount, and is the first call to mint for it. -/
def LoadsAlone (c : Config ApiState ApiCall) : ApiCall → Prop
  | .loadTransaction dto => ∀ t ∈ findTransaction c.shared dto.externalId,
      (dispatchCallback env users t dto).bind ApiCall.target = some t.id →
        NoMint env users c t.id ∧ t.type = .deposit ∧ env.stroops dto.amount = env.stroops t.amount
  | _ => True

/-- A callback loads a row as above, and an approval that passes the checks is the first call to mint for its row. -/
def MintsAlone (c : Config ApiState ApiCall) : Op ApiRequest Reply → Prop
  | .start (.approveTransaction id operatorId status) =>
    (checkApproval env users c.shared id operatorId status).toOption.bind ApiCall.target = some id →
      NoMint env users c id
  | .resume i _ => ∀ f ∈ c.calls[i]?, LoadsAlone env users c f
  | _ => True

/-- The mints of a row and the calls that are about to send one are at most one together. -/
def MintReserved (c : Config ApiState ApiCall) : Prop :=
  ∀ id, c.potential (ApiState.mints id) (ApiCall.minting env users id) ≤ 1

def MintSound (s : ApiState) (id : String) (effect : Effect) : Prop :=
  ∃ toAddress t, findTransaction s id = some t ∧ t.type = .deposit ∧
    effect = .mint toAddress (env.stroops t.amount)

def MintsSound (s : ApiState) : Prop :=
  ∀ tx ∈ s.network.live, ∀ id, tx.onBehalfOf = some id → MintSound env s id tx.effect

def CallSound (s : ApiState) : ApiCall → Prop
  | .sendMint id effect _ => MintSound env s id effect
  | .updatePixColumns t dto => ∀ id effect u, dispatchCallback env users t dto = some (.sendMint id effect u) →
      MintSound env s id effect
  | .sendBurn _ _ tx => tx.onBehalfOf = none
  | _ => True

def RowsKept (s s' : ApiState) : Prop :=
  ∀ id t, findTransaction s id = some t →
    ∃ t', findTransaction s' id = some t' ∧ t'.type = t.type ∧ t'.amount = t.amount

end Condition

section Rows
variable {env : StellarEnv} {users : String → Option User} {s s' : ApiState} {id : String} {effect : Effect}

theorem RowsKept.of_eq (h : s'.transactions = s.transactions) : RowsKept s s' := by
  intro id t ht
  unfold findTransaction at ht ⊢
  rw [h]
  exact ⟨t, ht, rfl, rfl⟩

theorem RowsKept.create {t : Transaction} : RowsKept s (s.createTransaction t) := by
  intro id t' ht'
  unfold ApiState.createTransaction
  split
  · exact ⟨t', ht', rfl, rfl⟩
  · exact ⟨t', Table.find_append ht', rfl, rfl⟩

theorem RowsKept.update {u : TransactionUpdate} : RowsKept s (s.updateTransaction id u) := by
  intro id' t ht
  have hfind : findTransaction (s.updateTransaction id u) id' =
      (findTransaction s id').map fun r => if r.id = id then r.update u else r := Table.find_modify fun _ h => h
  rw [hfind, ht]
  refine ⟨if t.id = id then t.update u else t, rfl, ?_⟩
  split <;> exact ⟨rfl, rfl⟩

theorem MintSound.kept (hs : RowsKept s s') (h : MintSound env s id effect) : MintSound env s' id effect := by
  obtain ⟨toAddress, t, ht, htype, heffect⟩ := h
  obtain ⟨t', ht', htype', hamount⟩ := hs id t ht
  exact ⟨toAddress, t', ht', htype'.trans htype, hamount ▸ heffect⟩

theorem CallSound.kept {call : ApiCall} (hs : RowsKept s s') (h : CallSound env users s call) :
    CallSound env users s' call := by
  cases call with
  | sendMint id effect u => exact MintSound.kept hs h
  | updatePixColumns t dto => exact fun id effect u hd => MintSound.kept hs (h id effect u hd)
  | sendBurn userId dto tx => exact h
  | _ => trivial

end Rows

/-! ### What is sent is sound -/

section Sound
variable {env : StellarEnv} {users : String → Option User} {s s' : ApiState} {request : ApiRequest} {call : ApiCall}
  {next : Option ApiCall} {reply : Reply}

/-- The state after a step is sound, rows are kept, and the call that waits is sound. -/
def StepSound (env : StellarEnv) (users : String → Option User) (s s' : ApiState) (next : Option ApiCall) : Prop :=
  MintsSound env s' ∧ RowsKept s s' ∧ ∀ f ∈ next, CallSound env users s' f

theorem StepSound.of_network (hs : MintsSound env s) (hrows : RowsKept s s') (hnetwork : s'.network = s.network)
    (hcall : ∀ f ∈ next, CallSound env users s' f) : StepSound env users s s' next := by
  refine ⟨fun tx htx id hid => ?_, hrows, hcall⟩
  rw [hnetwork] at htx
  exact (hs tx htx id hid).kept hrows

theorem StepSound.ended (hs : MintsSound env s) (hrows : RowsKept s s') (hnetwork : s'.network = s.network) :
    StepSound env users s s' none :=
  .of_network hs hrows hnetwork fun f hf => absurd hf (Option.not_mem_none f)

theorem StepSound.waits (hs : MintsSound env s) (hcall : CallSound env users s call) :
    StepSound env users s s (some call) := by
  refine .of_network hs (.of_eq rfl) rfl fun f hf => ?_
  rw [← Option.some.inj hf]
  exact hcall

/-- A transaction that is sent is live from then on; it is on behalf of a row only as a sound mint. -/
theorem StepSound.sent {tx : LedgerTx} (hs : MintsSound env s)
    (htx : ∀ id, tx.onBehalfOf = some id → MintSound env s id tx.effect)
    (hcall : ∀ s', RowsKept s s' → CallSound env users s' call) :
    StepSound env users s { s with network := if reply.accepted then s.network.take tx else s.network }
      (if reply.answered then some call else none) := by
  have hrows : RowsKept s { s with network := if reply.accepted then s.network.take tx else s.network } := .of_eq rfl
  refine ⟨fun tx' htx' id hid => MintSound.kept hrows ?_, hrows, fun f hf => ?_⟩
  · have hlive : tx' ∈ s.network.live ∨ tx' = tx := by
      cases haccepted : reply.accepted with
      | true => exact mem_live_take (by simpa [haccepted] using htx')
      | false => exact .inl (by simpa [haccepted] using htx')
    rcases hlive with hold | rfl
    · exact hs tx' hold id hid
    · exact htx id hid
  · split at hf
    · cases hf
      exact hcall _ hrows
    · cases hf

theorem started_sound (hs : MintsSound env s) (h : Started env users s request s' next) :
    StepSound env users s s' next := by
  cases h with
  | ended => exact .ended hs (.of_eq rfl) rfl
  | createDeposit dto | createWithdrawal dto | update request id u | withdrawFromPool request id u | recordEvent dto =>
    exact .waits hs trivial
  | sendBurn userId dto tx htx => exact .waits hs (prepareWithdrawal_inv htx)
  | sendMint id operatorId status toAddress t u ht htype => exact .waits hs ⟨toAddress, t, ht, htype, rfl⟩
  | ledger settlement =>
    have hrows : RowsKept s { s with network := s.network.settle (clientSettlement settlement) } := .of_eq rfl
    refine ⟨fun tx htx id hid => ?_, hrows, fun f hf => absurd hf (Option.not_mem_none f)⟩
    rcases mem_live_settle htx with hlive | hother
    · exact (hs tx hlive id hid).kept hrows
    · cases settlement with
      | other t =>
        cases hother
        cases hid
      | land i | fail i | drop i => cases hother

/-- A callback loads a deposit with its own amount, if it will mint. -/
def LoadsDeposit (env : StellarEnv) (users : String → Option User) (s : ApiState) : ApiCall → Reply → Prop
  | .loadTransaction dto, _ => ∀ t ∈ findTransaction s dto.externalId,
      (dispatchCallback env users t dto).bind ApiCall.target = some t.id →
        t.type = .deposit ∧ env.stroops dto.amount = env.stroops t.amount
  | _, _ => True

theorem resumed_sound (hs : MintsSound env s) (hcall : CallSound env users s call)
    (hloads : LoadsDeposit env users s call reply) (h : Resumed env users s call s' next) :
    StepSound env users s s' next := by
  cases h with
  | ended => exact .ended hs (.of_eq rfl) rfl
  | again => exact .waits hs hcall
  | createDeposit dto t => exact .ended hs .create createTransaction_kept.1
  | update id u => exact .ended hs .update rfl
  | sendMint id effect u reply' =>
    refine .sent hs (fun id' hid => ?_) fun _ _ => trivial
    cases hid
    exact hcall
  | minted id tx u u' | withdrawn id u u' => exact .waits hs trivial
  | recordEvent dto =>
    refine .of_network hs (.of_eq rfl) rfl fun f hf => ?_
    cases hf
    trivial
  | loadTransaction dto t ht =>
    refine .waits hs fun id effect u hdispatch => ?_
    have htarget : (dispatchCallback env users t dto).bind ApiCall.target = some id := by
      rw [hdispatch]
      rfl
    rcases dispatchCallback_inv hdispatch with ⟨toAddress, u', hsend⟩ | ⟨u', hupdate⟩
    · cases hsend
      obtain ⟨htype, hamount⟩ := hloads t ht htarget
      have hid : t.id = dto.externalId := Table.key_of_find ht
      exact ⟨toAddress, t, hid ▸ ht, htype, by rw [hamount]⟩
    · cases hupdate
  | dispatch t dto f hdispatch =>
    refine .waits hs ?_
    rcases dispatchCallback_inv hdispatch with ⟨toAddress, u, rfl⟩ | ⟨u, rfl⟩
    · exact hcall _ _ _ hdispatch
    · trivial
  | sendBurn userId dto tx reply' =>
    have hnone : tx.onBehalfOf = none := hcall
    refine .sent hs (fun id hid => ?_) fun _ _ => trivial
    rw [hnone] at hid
    cases hid
  | burned userId dto tx hlanded => exact .waits hs trivial
  | createWithdrawal dto t =>
    refine .of_network hs .create createTransaction_kept.1 fun f hf => ?_
    cases hf
    trivial
  | orderWithdrawal t dto => exact .ended hs (.of_eq rfl) rfl

end Sound

theorem mints_outline (env : StellarEnv) (users : String → Option User) :
    Outline (transactionsApi env users) (fun _ _ => True) (LoadsDeposit env users) (MintsSound env)
      (CallSound env users) RowsKept where
  start request s hs _ := started_sound hs (startCall_started env users s request)
  resume call reply s hs hcall hloads := resumed_sound hs hcall hloads (resumeCall_resumed env users s call reply)
  stable _ _ _ hrows hcall := hcall.kept hrows

/-! ### A mint is reserved -/

section Reserved
variable {env : StellarEnv} {users : String → Option User} {s s' : ApiState} {request : ApiRequest} {call : ApiCall}
  {next : Option ApiCall} {id : String} {c c' : Config ApiState ApiCall} {op : Op ApiRequest Reply}

/-- The live mints of the row, and the one that a call will send. -/
def mintsAfter (env : StellarEnv) (users : String → Option User) (id : String) (s : ApiState) (next : Option ApiCall) : Nat :=
  s.mints id + weight (ApiCall.minting env users id) next

theorem mintsAfter_le_succ : mintsAfter env users id s (some call) ≤ s.mints id + 1 := by
  have hle : call.minting env users id ≤ 1 := by
    unfold ApiCall.minting
    split
    · split <;> omega
    · split <;> omega
    · exact Nat.zero_le 1
  exact Nat.add_le_add_left hle _

/-- Dispatching a callback changes nothing in what the call will send. -/
theorem minting_dispatchCallback {t : Transaction} {dto : PixWebhookDto} {f : ApiCall}
    (h : dispatchCallback env users t dto = some f) :
    f.minting env users id = (ApiCall.updatePixColumns t dto).minting env users id := by
  rcases dispatchCallback_inv h with ⟨toAddress, u, rfl⟩ | ⟨u, rfl⟩ <;> simp [ApiCall.minting, h, ApiCall.target]

theorem dispatchCallback_target {t : Transaction} {dto : PixWebhookDto}
    (h : (dispatchCallback env users t dto).bind ApiCall.target = some id) : t.id = id := by
  obtain ⟨call, hcall, htarget⟩ := Option.bind_eq_some_iff.mp h
  rcases dispatchCallback_inv hcall with ⟨toAddress, u, rfl⟩ | ⟨u, rfl⟩
  · exact Option.some.inj htarget
  · cases htarget

theorem mints_of_network (hnetwork : s'.network = s.network) : s'.mints id = s.mints id := by
  rw [ApiState.mints, ApiState.mints, hnetwork]

theorem mintsAfter_sent {tx : LedgerTx} {reply : Reply} (hcall : call.minting env users id = 0) :
    mintsAfter env users id { s with network := if reply.accepted then s.network.take tx else s.network }
        (if reply.answered then some call else none) ≤
      s.mints id + if tx.isFor id then 1 else 0 := by
  have hweight : weight (ApiCall.minting env users id) (if reply.answered then some call else none) = 0 := by
    refine weight_eq_zero fun f hf => ?_
    split at hf
    · cases hf
      exact hcall
    · cases hf
  rw [mintsAfter, hweight]
  simp only [ApiState.mints]
  split
  · exact countP_live_take_le
  · exact Nat.le_add_right _ _

/-- A request will send a mint for a row only after an approval of the row passed its checks. -/
theorem started_mints (id : String) (h : Started env users s request s' next) :
    mintsAfter env users id s' next ≤ s.mints id ∨
      mintsAfter env users id s' next ≤ s.mints id + 1 ∧ ∃ operatorId status,
        request = .approveTransaction id operatorId status ∧
          (checkApproval env users s id operatorId status).toOption.bind ApiCall.target = some id := by
  cases h with
  | ended | createDeposit | createWithdrawal | sendBurn | update | withdrawFromPool | recordEvent =>
    exact .inl (Nat.le_refl _)
  | sendMint id' operatorId status toAddress t u ht htype hcheck =>
    by_cases hid : id' = id
    · subst hid
      exact .inr ⟨mintsAfter_le_succ, operatorId, status, rfl, by rw [hcheck]; rfl⟩
    · exact .inl (Nat.add_le_add_left (Nat.le_of_eq (if_neg hid)) _)
  | ledger settlement =>
    refine .inl (countP_live_settle_le fun t ht => ?_)
    cases settlement with
    | other t' =>
      cases ht
      rfl
    | land i | fail i | drop i => cases ht

/-- A call sends the mint that it was to send, and only a callback that loads the row becomes one that will. -/
theorem resumed_mints (id : String) (hcall : CallSound env users s call) (h : Resumed env users s call s' next) :
    mintsAfter env users id s' next ≤ s.mints id + call.minting env users id ∨
      mintsAfter env users id s' next ≤ s.mints id + 1 ∧ ∃ dto t, call = .loadTransaction dto ∧
        findTransaction s dto.externalId = some t ∧ (dispatchCallback env users t dto).bind ApiCall.target = some id := by
  cases h with
  | ended => exact .inl (Nat.le_add_right _ _)
  | again | update | minted | withdrawn | recordEvent | burned | orderWithdrawal => exact .inl (Nat.le_refl _)
  | createDeposit dto t => exact .inl (Nat.le_of_eq (mints_of_network createTransaction_kept.1))
  | createWithdrawal dto t => exact .inl (Nat.le_of_eq (mints_of_network createTransaction_kept.1))
  | sendMint id' effect u reply =>
    refine .inl (Nat.le_trans (mintsAfter_sent rfl) ?_)
    simp [LedgerTx.isFor, ApiCall.minting]
  | loadTransaction dto t ht =>
    by_cases htarget : (dispatchCallback env users t dto).bind ApiCall.target = some id
    · exact .inr ⟨mintsAfter_le_succ, dto, t, rfl, ht, htarget⟩
    · exact .inl (Nat.add_le_add_left (Nat.le_of_eq (if_neg htarget)) _)
  | dispatch t dto f hf => exact .inl (Nat.add_le_add_left (Nat.le_of_eq (minting_dispatchCallback hf)) _)
  | sendBurn userId dto tx reply =>
    have hnone : tx.onBehalfOf = none := hcall
    refine .inl (Nat.le_trans (mintsAfter_sent rfl) ?_)
    simp [LedgerTx.isFor, hnone]

/-- The first call to mint for a row reserves its mint. -/
theorem MintReserved.step (hc : MintReserved env users c) (hcalls : ∀ f ∈ c.calls, CallSound env users c.shared f)
    (halone : MintsAlone env users c op) (hstep : (transactionsApi env users).step c op = .ok c') :
    MintReserved env users c' := by
  intro id
  cases step_moved hstep with
  | start request hop hc' =>
    subst hop hc'
    rcases started_mints id (startCall_started env users c.shared request) with
      hquiet | ⟨hmints, operatorId, status, rfl, htarget⟩
    · exact Nat.le_trans (potential_start_le (n := 0) hquiet) (hc id)
    · have hnomint : NoMint env users c id := halone htarget
      exact Nat.le_trans (potential_start_le hmints) (Nat.le_of_eq (congrArg (· + 1) hnomint))
  | resume i reply f rest hop hf hperm hc' =>
    subst hop hc'
    have hsound := hcalls f (hperm.mem_iff.mpr List.mem_cons_self)
    rcases resumed_mints id hsound (resumeCall_resumed env users c.shared f reply) with
      hquiet | ⟨hmints, dto, t, rfl, ht, htarget⟩
    · exact Nat.le_trans (potential_resume_le (n := 0) hperm hquiet) (hc id)
    · obtain rfl : t.id = id := dispatchCallback_target htarget
      obtain ⟨hnomint, -, -⟩ := halone _ hf t ht htarget
      refine Nat.le_trans (potential_resume_le (n := 1) hperm ?_) (Nat.le_of_eq (congrArg (· + 1) hnomint))
      exact hmints
  | crash i f rest hop hperm hc' =>
    subst hc'
    exact Nat.le_trans (potential_crash_le hperm) (hc id)

end Reserved

/-! ### Every run -/

section Runs
variable {env : StellarEnv} {users : String → Option User} {c : Config ApiState ApiCall} {op : Op ApiRequest Reply}

theorem MintsAlone.allows (h : MintsAlone env users c op) :
    Allows (fun _ _ => True) (LoadsDeposit env users) c op := by
  cases op with
  | start request => trivial
  | resume i reply =>
    intro f hf
    have hloads : LoadsAlone env users c f := h f hf
    cases f with
    | loadTransaction dto => exact fun t ht htarget => (hloads t ht htarget).2
    | _ => trivial
  | crash i => trivial

theorem mintedOnce_of_reserved (hsound : MintsSound env c.shared) (hreserved : MintReserved env users c) :
    MintedOnce env c.shared := by
  intro id
  have hlength : (c.shared.network.landed.filter (·.isFor id)).length ≤ 1 := by
    have hlive : c.shared.mints id ≤ 1 := Nat.le_trans (Nat.le_add_right _ _) (hreserved id)
    rw [ApiState.mints, Network.live, List.countP_append] at hlive
    rw [← List.countP_eq_length_filter]
    omega
  unfold ApiState.minted
  rcases h : c.shared.network.landed.filter (·.isFor id) with _ | ⟨tx, _ | ⟨tx', rest⟩⟩
  · exact .inl (by rw [h]; rfl)
  · have htx : tx ∈ c.shared.network.landed.filter (·.isFor id) := by
      rw [h]
      exact List.mem_cons_self
    obtain ⟨hlanded, hfor⟩ := List.mem_filter.mp htx
    obtain ⟨toAddress, t, ht, htype, heffect⟩ := hsound tx (mem_live_of_landed hlanded) id (of_decide_eq_true hfor)
    exact .inr ⟨t, ht, htype, by simp [h, LedgerTx.minted, heffect]⟩
  · rw [h] at hlength
    simp at hlength

end Runs

/-- In every run whose calls each are the first to mint for a deposit with its amount, every row has nothing minted or
    is a deposit of which exactly the amount is. -/
theorem brlt_minted_once (env : StellarEnv) (users : String → Option User) (transactions : List Transaction)
    (webhookEvents : List String) (pixWithdrawals : List PixWithdrawal) (ops : List (Op ApiRequest Reply))
    (halone : Along (transactionsApi env users).step (MintsAlone env users)
      ⟨⟨transactions, webhookEvents, .empty, pixWithdrawals⟩, []⟩ ops) :
    Throughout (transactionsApi env users).step (fun c => MintedOnce env c.shared)
      ⟨⟨transactions, webhookEvents, .empty, pixWithdrawals⟩, []⟩ ops := by
  have hinv : Throughout (transactionsApi env users).step
      (fun c => Holds (MintsSound env) (CallSound env users) c ∧ MintReserved env users c)
      ⟨⟨transactions, webhookEvents, .empty, pixWithdrawals⟩, []⟩ ops := by
    refine throughout_of_along (fun c op c' hc halone hstep => ?_) ?_ halone
    · exact ⟨(mints_outline env users).step hc.1 halone.allows hstep, hc.2.step hc.1.2 halone hstep⟩
    · exact ⟨⟨List.forall_mem_nil _, List.forall_mem_nil _⟩, fun _ => Nat.zero_le 1⟩
  exact hinv.mono fun c hc => mintedOnce_of_reserved hc.1.1 hc.2

section Examples

instance (env : StellarEnv) (users : String → Option User) (c : Config ApiState ApiCall) (id : String) :
    Decidable (NoMint env users c id) := inferInstanceAs (Decidable (_ = 0))

instance (env : StellarEnv) (users : String → Option User) (c : Config ApiState ApiCall) :
    (f : ApiCall) → Decidable (LoadsAlone env users c f)
  | .loadTransaction dto => inferInstanceAs (Decidable (∀ t ∈ findTransaction c.shared dto.externalId,
      (dispatchCallback env users t dto).bind ApiCall.target = some t.id →
        NoMint env users c t.id ∧ t.type = .deposit ∧ env.stroops dto.amount = env.stroops t.amount))
  | .createDeposit _ | .update _ _ | .sendMint _ _ _ | .awaitMint _ _ _ | .withdrawFromPool _ _ | .recordEvent _
  | .updatePixColumns _ _ | .sendBurn _ _ _ | .awaitBurn _ _ _ | .createWithdrawal _ | .orderWithdrawal _ _ =>
    instDecidableTrue

instance (env : StellarEnv) (users : String → Option User) (c : Config ApiState ApiCall) :
    (op : Op ApiRequest Reply) → Decidable (MintsAlone env users c op)
  | .start (.approveTransaction id _ _) => inferInstanceAs (Decidable (_ = some id → NoMint env users c id))
  | .resume i _ => inferInstanceAs (Decidable (∀ f ∈ c.calls[i]?, LoadsAlone env users c f))
  | .start (.createDepositOrder _) | .start (.createWithdrawalOrder _) | .start (.buildWithdrawalTx _ _ _)
  | .start (.submitWithdrawal _ _) | .start (.markAsPaid _ _) | .start (.processPixOrderCallback _)
  | .start (.ledger _) | .crash _ => instDecidableTrue

def paidDeposit : List (Op ApiRequest Reply) :=
  [.start (.createDepositOrder ⟨"investor", 100⟩), .resume 0 { uuid := "deposit" },
    .start (.markAsPaid "deposit" "investor"), .resume 0 {}]

def approval : Op ApiRequest Reply := .start (.approveTransaction "deposit" "admin" "APPROVED")

/-- The network does not take the first mint, the second lands after its deadline, and the deposit is rejected. -/
theorem brlt_minted_once_late :
    Throughout (transactionsApi testStellar testUsers).step (fun c => MintedOnce testStellar c.shared)
      ⟨⟨[], [], .empty, []⟩, []⟩
      (paidDeposit ++ [approval, .resume 0 { accepted := false, answered := false },
        approval, .resume 0 { txHash := "mint" }, .resume 0 { deadline := true }, .start (.ledger (.land 0)),
        .start (.approveTransaction "deposit" "admin" "REJECTED"), .resume 0 {}]) :=
  brlt_minted_once testStellar testUsers [] [] [] _ (by decide +kernel)

def approvedThenConfirmed : List (Op ApiRequest Reply) :=
  paidDeposit ++ [approval, .resume 0 { txHash := "mint-1" }, .start (.ledger (.land 0)), .resume 0 {}, .resume 0 {},
    .start (.processPixOrderCallback ⟨"event", "deposit", "DEPOSIT", "CONFIRMED", 100⟩), .resume 0 {}, .resume 0 {},
    .resume 0 {}, .resume 0 { txHash := "mint-2" }, .start (.ledger (.land 0))]

def givenUpThenApproved : List (Op ApiRequest Reply) :=
  paidDeposit ++ [approval, .resume 0 { txHash := "mint-1" }, .resume 0 { deadline := true },
    .start (.ledger (.land 0)), approval, .resume 0 { txHash := "mint-2" }, .start (.ledger (.land 0))]

/-- Twice the amount of the deposit is minted. -/
theorem brlt_minted_twice :
    ¬Throughout (transactionsApi testStellar testUsers).step (fun c => MintedOnce testStellar c.shared)
        ⟨⟨[], [], .empty, []⟩, []⟩ approvedThenConfirmed ∧
      ¬Throughout (transactionsApi testStellar testUsers).step (fun c => MintedOnce testStellar c.shared)
        ⟨⟨[], [], .empty, []⟩, []⟩ givenUpThenApproved :=
  ⟨fun h => absurd (h.last "deposit") (by decide +kernel), fun h => absurd (h.last "deposit") (by decide +kernel)⟩

end Examples
end CredBridge.Api
