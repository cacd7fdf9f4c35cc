import CredBridge.Api.PixEffects

/-! # A receivable is settled once, where its settlements do not overlap

A settlement reads the status of the receivable, goes to the chain, and only then writes the status and a row of
`Settlement`. Another callback that reads the status in between settles too, and so does one that comes after a
settlement that landed without being written. What remains is that a settlement settles once: what it did and may still
do for its receivable is at most once, when it was alone as it read the status. -/

namespace CredBridge.Api
open Concurrent Contracts Machine Result Submission

section Property
variable {σ : Type}

/-- The receivable that the recorded event is for. -/
def PixState.receivableOf (s : PixState σ) (eventId : String) : Option String :=
  (Table.find PixWebhookEvent.eventId eventId s.webhookEvents).map (·.externalId)

/-- How often the act was done for events of the receivable. -/
def PixState.timesFor (receivableId : String) (act : Act) (s : PixState σ) : Nat :=
  s.journal.countP fun e => e.2 = act ∧ s.receivableOf e.1 = some receivableId

/-- Settlements in the pool that landed, and rows of `Settlement`: one each at most. -/
def SettledOnce (s : PixState σ) : Prop :=
  ∀ receivableId, s.timesFor receivableId .settleOnChain ≤ 1 ∧
    s.settlements.countP (·.receivableId = receivableId) ≤ 1

/-- The receivable that the call has found unsettled, with what it settles it for. -/
def PixCall.settlement : PixCall → Option (PixCollectionCallback × ReceivableRow)
  | .settleOnChain dto _ receivable _ | .markSettled dto _ receivable _ | .createSettlement dto _ receivable _ =>
    some (dto, receivable)
  | _ => none

def PixCall.mayDoFor (receivableId : String) (act : Act) (call : PixCall) : Nat :=
  if call.settlement.map (·.1.receivableId) = some receivableId ∧ act ∈ call.acts then 1 else 0

/-- No settlement of the receivable has landed or is recorded, and no call is on its way to one. -/
def Unsettled (c : Config (PixState σ) PixCall) (receivableId : String) : Prop :=
  ∀ act ∈ [Act.settleOnChain, .createSettlement],
    c.potential (PixState.timesFor receivableId act) (PixCall.mayDoFor receivableId act) = 0

/-- A callback that reads its receivable as not settled is alone with it. -/
def ReadsAlone (c : Config (PixState σ) PixCall) : PixCall → Prop
  | .findSettled dto _ => ∀ r ∈ c.shared.findReceivable dto.receivableId, r.status ≠ .other "settled" →
      Unsettled c dto.receivableId
  | _ => True

def SettlesAlone (c : Config (PixState σ) PixCall) : Op PixRequest PixReply → Prop
  | .resume i _ => ∀ call ∈ c.calls[i]?, ReadsAlone c call
  | _ => True

/-- The settlements of a receivable, those done and those on their way, are at most one. -/
def SettlementReserved (c : Config (PixState σ) PixCall) : Prop :=
  ∀ receivableId, ∀ act ∈ [Act.settleOnChain, .createSettlement],
    c.potential (PixState.timesFor receivableId act) (PixCall.mayDoFor receivableId act) ≤ 1

end Property

/-! ### What the calls know -/

section Tracked
variable {σ : Type} {env : PixEnv σ} {s s' : PixState σ} {call next : PixCall} {reply : PixReply}

/-- What was done was done for recorded events, and the rows of `Settlement` are what was created. -/
structure PixState.Tracks (s : PixState σ) : Prop where
  recorded : ∀ e ∈ s.journal, (s.receivableOf e.1).isSome
  settlements : ∀ receivableId,
    s.settlements.countP (·.receivableId = receivableId) = s.timesFor receivableId .createSettlement

/-- The event of a call is recorded for its receivable, and the row that it settles is this one. -/
structure PixCall.Tracked (s : PixState σ) (call : PixCall) : Prop where
  event : ∀ callback ∈ call.callback?, (∀ callback, call ≠ .recordEvent callback) →
    s.receivableOf callback.eventId = some callback.event.externalId
  receivable : ∀ p ∈ call.settlement, p.2.id = p.1.receivableId

def KeepsEvents (s s' : PixState σ) : Prop :=
  ∀ eventId receivableId, s.receivableOf eventId = some receivableId → s'.receivableOf eventId = some receivableId

theorem KeepsEvents.of_eq (h : s'.webhookEvents = s.webhookEvents) : KeepsEvents s s' := by
  intro eventId receivableId hfind
  unfold PixState.receivableOf at hfind ⊢
  rwa [h]

theorem KeepsEvents.record {callback : Callback} : KeepsEvents s (s.record callback) := by
  intro eventId receivableId hfind
  obtain ⟨event, hevent, hid⟩ := Option.map_eq_some_iff.mp hfind
  exact Option.map_eq_some_iff.mpr ⟨event, Table.find_append hevent, hid⟩

theorem PixCall.Tracked.keeps (h : call.Tracked s) (hs : KeepsEvents s s') : call.Tracked s' where
  event callback hcallback hcall := hs _ _ (h.event callback hcallback hcall)
  receivable := h.receivable

/-- What is done for an event is counted for its receivable. -/
theorem timesFor_append {done : List (String × Act)} {receivableId : String} {act : Act} (hs : s.Tracks)
    (hevents : KeepsEvents s s') (hjournal : s'.journal = s.journal ++ done) :
    s'.timesFor receivableId act = s.timesFor receivableId act +
      done.countP fun e => e.2 = act ∧ s'.receivableOf e.1 = some receivableId := by
  unfold PixState.timesFor
  rw [hjournal, List.countP_append]
  congr 1
  refine List.countP_congr fun e he => ?_
  obtain ⟨r, hr⟩ := Option.isSome_iff_exists.mp (hs.recorded e he)
  rw [hr, hevents e.1 r hr]

theorem timesFor_same {receivableId : String} {act : Act} (hs : s.Tracks) (hevents : KeepsEvents s s')
    (hjournal : s'.journal = s.journal) : s'.timesFor receivableId act = s.timesFor receivableId act := by
  rw [timesFor_append hs hevents (hjournal.trans (List.append_nil _).symm)]
  rfl

theorem callback_of_settlement {p : PixCollectionCallback × ReceivableRow} (h : call.settlement = some p) :
    call.callback? = some (.collection p.1) := by
  cases call <;> cases h <;> rfl

/-- Only a call that settles a receivable lands or records a settlement. -/
theorem settlement_of_act {act : Act} (hact : act ∈ [Act.settleOnChain, .createSettlement]) (h : call.act? = some act) :
    ∃ p, call.settlement = some p := by
  cases call with
  | settleOnChain dto _ receivable | createSettlement dto _ receivable => exact ⟨(dto, receivable), rfl⟩
  | _ =>
    cases h
    all_goals simp at hact

/-- What a call did counts as what it might do. -/
theorem countP_done_le {act : Act} (hact : act ∈ [Act.settleOnChain, .createSettlement]) (hcall : call.Tracked s)
    (receivableId : String) :
    call.done.countP (fun e => e.2 = act ∧ s.receivableOf e.1 = some receivableId) ≤
      call.mayDoFor receivableId act := by
  by_cases hdoes : call.act? = some act
  · obtain ⟨p, hsettlement⟩ := settlement_of_act hact hdoes
    have hcallback := callback_of_settlement hsettlement
    have hevent := hcall.event _ hcallback fun callback hrecord => by
      rw [hrecord] at hdoes
      cases hdoes
    have hdone : call.done = [(p.1.eventId, act)] := by
      unfold PixCall.done
      rw [hcallback, hdoes]
      rfl
    by_cases hid : p.1.receivableId = receivableId
    · have hmay : call.mayDoFor receivableId act = 1 := if_pos ⟨by rw [hsettlement, ← hid]; rfl, acts_of_act? hdoes⟩
      rw [hmay, hdone]
      exact List.countP_le_length
    · have hother : s.receivableOf p.1.eventId ≠ some receivableId := fun h =>
        hid (Option.some.inj (hevent.symm.trans h))
      rw [hdone]
      simp [hother]
  · have hnone : ∀ e ∈ call.done, ¬(e.2 = act ∧ s.receivableOf e.1 = some receivableId) := by
      rintro e he ⟨rfl, -⟩
      unfold PixCall.done at he
      split at he
      · next hact' =>
        rw [List.mem_singleton.mp he] at hdoes
        exact hdoes hact'
      · cases he
    rw [List.countP_eq_zero.mpr fun e he hboth => hnone e he (of_decide_eq_true hboth)]
    exact Nat.zero_le _

/-- Where a settlement comes from: a call goes on settling, or a callback has found its receivable unsettled. -/
def SettlesOn (s : PixState σ) (call next : PixCall) : Prop :=
  next.settlement = none ∨ next.settlement = call.settlement ∨
    ∃ dto collection receivable, call = .findSettled dto collection ∧ next.settlement = some (dto, receivable) ∧
      s.findReceivable dto.receivableId = some receivable ∧ receivable.status ≠ .other "settled"

theorem proceed_settlement {value : String} (h : call.proceed env value s = .next next) : SettlesOn s call next := by
  cases call with
  | findSettled dto collection =>
    simp only [PixCall.proceed, settleInvoice] at h
    split at h
    · cases h
    · next receivable hfind =>
      split at h
      · obtain ⟨_, _, rfl⟩ := afterSettlement_follows h
        exact .inl rfl
      · next hstatus =>
        split at h
        · cases h
        · cases h
          exact .inr (.inr ⟨dto, collection, receivable, rfl, rfl, hfind, hstatus⟩)
        · cases h
          exact .inr (.inr ⟨dto, collection, receivable, rfl, rfl, hfind, hstatus⟩)
  | createSettlement dto collection receivable txHash =>
    obtain ⟨_, _, rfl⟩ := afterSettlement_follows h
    exact .inl rfl
  | markSettled dto collection receivable txHash =>
    cases h
    exact .inr (.inl rfl)
  | recordEvent callback =>
    simp only [PixCall.proceed] at h
    split at h
    · cases h
    · cases callback with
      | order dto =>
        cases h
        exact .inl rfl
      | collection dto =>
        simp only at h
        split at h <;> cases h
        exact .inl rfl
  | updatePixColumns t dto =>
    rcases hnext : next.settlement with _ | p
    · exact .inl hnext
    · have hcollection := (callback_of_settlement hnext).symm.trans (dispatchOrder_follows h).callback
      cases hcollection
  | loadTransaction | findCollection | findReceivable | createTransaction =>
    simp only [PixCall.proceed] at h
    split at h <;> cases h <;> exact .inl rfl
  | approve | updateStatus | markPaid | auditPaid | auditCreated | orderWithdrawal =>
    cases h
    exact .inl rfl
  | failDeposit | auditConfirmed | auditMintFailed | auditStatus | recordTxHash | setPixOrder | mint | settleOnChain
  | burn => cases h

theorem rescue_settlement {message : String} (h : call.rescue message = .next next) : next.settlement = none := by
  cases call <;> cases h <;> rfl

theorem confirmed_settlement {txHash : String} (h : (call.confirmed env txHash s).2 = .next next) :
    next.settlement = none ∨ next.settlement = call.settlement := by
  cases call with
  | mint =>
    cases h
    exact .inl rfl
  | settleOnChain =>
    cases h
    exact .inr rfl
  | burn userId dto tx =>
    simp only [PixCall.confirmed] at h
    split at h <;> cases h
    exact .inl rfl
  | _ => cases h

theorem resume_settlement (env : PixEnv σ) (call : PixCall) (reply : PixReply) (s : PixState σ) :
    ∀ next ∈ (resumePixCall env call reply s).2, SettlesOn s call next :=
  resume_establishes (P := fun _ next => SettlesOn s call next) (.inr (.inl rfl)) (fun _ _ h => proceed_settlement h)
    (fun _ _ _ h => .inl (rescue_settlement h)) (fun _ _ _ h => (confirmed_settlement h).imp_right .inl) reply

/-! What is done is tracked -/

theorem PixCall.Tracked.of_done {e : String × Act} (hcall : call.Tracked s) (he : e ∈ call.done) :
    ∃ callback, call.callback? = some callback ∧ call.act? = some e.2 ∧
      s.receivableOf e.1 = some callback.event.externalId := by
  unfold PixCall.done at he
  split at he
  · next callback act hcallback hact =>
    obtain rfl := List.mem_singleton.mp he
    refine ⟨callback, hcallback, hact, hcall.event callback hcallback fun callback' hrecord => ?_⟩
    rw [hrecord] at hact
    cases hact
  · cases he

theorem PixState.Tracks.done (hs : s.Tracks) (hcall : call.Tracked s) (hevents : s'.webhookEvents = s.webhookEvents)
    (hjournal : s'.journal = s.journal ++ call.done)
    (hsettlements : ∀ receivableId, s'.settlements.countP (·.receivableId = receivableId) =
      s.settlements.countP (·.receivableId = receivableId) +
        call.done.countP fun e => e.2 = .createSettlement ∧ s'.receivableOf e.1 = some receivableId) : s'.Tracks where
  recorded e he := by
    have hkeeps : ∀ {id : String}, (s.receivableOf id).isSome → (s'.receivableOf id).isSome := by
      intro id h
      unfold PixState.receivableOf at h ⊢
      rwa [hevents]
    rw [hjournal] at he
    rcases List.mem_append.mp he with he | he
    · exact hkeeps (hs.recorded e he)
    · obtain ⟨callback, -, -, hevent⟩ := hcall.of_done he
      exact hkeeps (by rw [hevent]; rfl)
  settlements receivableId := by
    rw [hsettlements receivableId, hs.settlements receivableId, timesFor_append hs (.of_eq hevents) hjournal]

theorem PixState.Tracks.same (hs : s.Tracks) (hevents : KeepsEvents s s') (hjournal : s'.journal = s.journal)
    (hsettlements : s'.settlements = s.settlements) : s'.Tracks where
  recorded e he := by
    obtain ⟨receivableId, hevent⟩ := Option.isSome_iff_exists.mp (hs.recorded e (hjournal ▸ he))
    rw [hevents e.1 receivableId hevent]
    rfl
  settlements receivableId := by
    rw [hsettlements, hs.settlements receivableId, timesFor_same hs hevents hjournal]

theorem execute_settlements (value : String)
    (h : ∀ dto collection receivable txHash, call ≠ .createSettlement dto collection receivable txHash) :
    (call.execute env value s).settlements = s.settlements := by
  cases call with
  | createSettlement dto collection receivable txHash => exact absurd rfl (h dto collection receivable txHash)
  | recordEvent | createTransaction =>
    simp only [PixCall.execute]
    split <;> rfl
  | orderWithdrawal =>
    simp only [PixCall.execute, PixState.orderWithdrawal]
    split <;> rfl
  | _ => rfl

theorem creates_of_act (h : call.act? = some .createSettlement) :
    ∃ dto collection receivable txHash, call = .createSettlement dto collection receivable txHash := by
  cases call <;> cases h
  exact ⟨_, _, _, _, rfl⟩

theorem execute_tracks (value : String) (hs : s.Tracks) (hcall : call.Tracked s) :
    (call.execute env value s).Tracks := by
  by_cases hcreates : ∃ dto collection receivable txHash, call = .createSettlement dto collection receivable txHash
  · obtain ⟨dto, collection, receivable, txHash, rfl⟩ := hcreates
    have hevent := hcall.event (.collection dto) rfl nofun
    have hid : receivable.id = dto.receivableId := hcall.receivable (dto, receivable) rfl
    refine hs.done hcall rfl rfl fun receivableId => ?_
    show (s.settlements ++ [_]).countP _ = _ + List.countP _ [(dto.eventId, Act.createSettlement)]
    rw [List.countP_append]
    congr 1
    have hrow : PixState.receivableOf ((PixCall.createSettlement dto collection receivable txHash).execute env value s)
        dto.eventId = some dto.receivableId := hevent
    simp [List.countP_singleton, hrow, hid]
  · have hsettlements : (call.execute env value s).settlements = s.settlements :=
      execute_settlements value fun dto collection receivable txHash h =>
        hcreates ⟨dto, collection, receivable, txHash, h⟩
    cases hsubmits : call.submits env with
    | some calls => rwa [execute_of_submits value hsubmits]
    | none =>
      by_cases hrecord : ∃ callback, call = .recordEvent callback
      · obtain ⟨callback, rfl⟩ := hrecord
        simp only [PixCall.execute]
        split
        · exact hs
        · exact hs.same .record rfl rfl
      · refine hs.done hcall (execute_webhookEvents value (not_exists.mp hrecord)) (execute_journal value hsubmits)
          fun receivableId => ?_
        have hnone : ∀ e ∈ call.done, e.2 ≠ .createSettlement := by
          intro e he hcreate
          obtain ⟨callback, -, hact, -⟩ := hcall.of_done he
          exact hcreates (creates_of_act (hcreate ▸ hact))
        have hcount : call.done.countP (fun e => e.2 = .createSettlement ∧
            (call.execute env value s).receivableOf e.1 = some receivableId) = 0 :=
          List.countP_eq_zero.mpr fun e he hboth => hnone e he (of_decide_eq_true hboth).1
        rw [hsettlements, hcount]
        rfl

theorem landed_tracks {calls : LedgerCalls} (chain : σ) (hs : s.Tracks) (hcall : call.Tracked s)
    (h : call.submits env = some calls) : (call.landed s chain).Tracks := by
  refine hs.done hcall (landed_webhookEvents chain) (landed_journal chain h) fun receivableId => ?_
  cases call with
  | mint | settleOnChain | burn => rfl
  | _ => cases h

theorem resume_tracks (hs : s.Tracks) (hcall : call.Tracked s) (reply : PixReply) :
    (resumePixCall env call reply s).1.Tracks := by
  refine resume_relates (R := fun s s' => s.Tracks → s'.Tracks) (fun _ hs => hs) (fun _ _ _ h h' hs => h' (h hs))
    (fun _ _ hs => hs.same (.of_eq rfl) rfl rfl) (fun value hs => execute_tracks value hs hcall)
    (fun chain _ hsubmits hs => landed_tracks chain hs hcall hsubmits) (fun txHash s' hs => ?_) reply hs
  refine hs.same (.of_eq (confirmed_webhookEvents txHash)) (confirmed_journal txHash) ?_
  cases call <;> rfl

theorem resume_keepsEvents (env : PixEnv σ) (call : PixCall) (reply : PixReply) (s : PixState σ) :
    KeepsEvents s (resumePixCall env call reply s).1 := by
  by_cases hrecord : ∃ callback, call = .recordEvent callback
  · obtain ⟨callback, rfl⟩ := hrecord
    cases resume_recorded env callback reply s with
    | waits _ hr | duplicate _ _ hr | raised _ _ hr =>
      rw [hr]
      exact .of_eq rfl
    | lost _ _ _ hr | next _ _ _ _ _ hr | finished _ _ _ hr =>
      rw [hr]
      exact .record
  · exact .of_eq (resume_webhookEvents (not_exists.mp hrecord) reply s)

theorem resume_recordEvent_journal (callback : Callback) (reply : PixReply) :
    (resumePixCall env (.recordEvent callback) reply s).1.journal = s.journal := by
  cases resume_recorded env callback reply s with
  | waits _ hr | duplicate _ _ hr | raised _ _ hr | lost _ _ _ hr | next _ _ _ _ _ hr | finished _ _ _ hr =>
    exact congrArg (fun r => r.1.journal) hr

/-- A row of an event that is inserted is found from then on. -/
theorem receivableOf_record {callback : Callback} (hnew : s.recorded callback.eventId = false) :
    (s.record callback).receivableOf callback.eventId = some callback.event.externalId := by
  have hnone : Table.find PixWebhookEvent.eventId callback.eventId s.webhookEvents = none := by
    unfold PixState.recorded at hnew
    rwa [Option.isSome_eq_false_iff, Option.isNone_iff_eq_none] at hnew
  have hfind : Table.find PixWebhookEvent.eventId callback.eventId (s.record callback).webhookEvents =
      some callback.event := by
    unfold PixState.record Table.find at *
    rw [List.find?_append, hnone, Option.none_or, List.find?_singleton]
    exact if_pos (decide_eq_true rfl)
  unfold PixState.receivableOf
  rw [hfind]
  rfl

theorem next_tracked (hcall : call.Tracked s) (hnext : next ∈ (resumePixCall env call reply s).2) :
    next.Tracked (resumePixCall env call reply s).1 where
  event callback hcallback hne := by
    have hkept := next_callback hnext
    by_cases hrecord : ∃ callback, call = .recordEvent callback
    · obtain ⟨callback', rfl⟩ := hrecord
      obtain rfl : callback' = callback := Option.some.inj (hkept.symm.trans hcallback)
      cases resume_recorded env callback' reply s with
      | waits _ hr =>
        rw [hr] at hnext
        cases hnext
        exact absurd rfl (hne callback')
      | next _ hnew _ _ _ hr =>
        rw [hr]
        exact receivableOf_record hnew
      | duplicate _ _ hr | raised _ _ hr | lost _ _ _ hr | finished _ _ _ hr =>
        rw [hr] at hnext
        cases hnext
    · exact resume_keepsEvents env call reply s _ _
        (hcall.event callback (hkept.symm.trans hcallback) (not_exists.mp hrecord))
  receivable p hp := by
    rcases resume_settlement env call reply s next hnext with hnone | hsame | ⟨dto, _, receivable, -, hnew, hfind, -⟩
    · rw [hnone] at hp
      cases hp
    · exact hcall.receivable p (hsame ▸ hp)
    · rw [hnew] at hp
      cases hp
      exact id_of_findReceivable hfind

theorem start_tracks (env : PixEnv σ) (request : PixRequest) (hs : s.Tracks) :
    (startPixCall env request s).1.Tracks ∧ KeepsEvents s (startPixCall env request s).1 ∧
      ∀ call ∈ (startPixCall env request s).2, call.Tracked (startPixCall env request s).1 := by
  obtain ⟨hjournal, hevents⟩ := start_kept env request s
  refine ⟨hs.same (.of_eq hevents) hjournal ?_, .of_eq hevents, fun call hcall => ?_⟩
  · cases startPixCall_received env request s with
    | answered _ _ hr | recording _ hr | refused _ _ hr | burning _ _ _ _ hr | moved _ _ hr =>
      exact congrArg (fun r => r.1.settlements) hr
  · rcases start_next hcall with ⟨callback, -, rfl⟩ | ⟨userId, dto, tx, -, -, rfl⟩
    · exact ⟨fun _ _ hne => absurd rfl (hne callback), fun _ hp => absurd hp (Option.not_mem_none _)⟩
    · refine ⟨fun _ hcallback _ => absurd hcallback (Option.not_mem_none _), fun _ hp => ?_⟩
      exact absurd hp (Option.not_mem_none _)

end Tracked

/-! ### A settlement is reserved -/

section Reserved
variable {σ : Type} {env : PixEnv σ} {s : PixState σ} {call next : PixCall} {reply : PixReply} {act : Act}
  {c c' : Config (PixState σ) PixCall} {op : Op PixRequest PixReply}

/-- The call reads the receivable, which is not settled. -/
def FindsUnsettled (s : PixState σ) (call : PixCall) (receivableId : String) : Prop :=
  ∃ dto collection receivable, call = .findSettled dto collection ∧ dto.receivableId = receivableId ∧
    s.findReceivable dto.receivableId = some receivable ∧ receivable.status ≠ .other "settled"

theorem mayDoFor_le_one {receivableId : String} : call.mayDoFor receivableId act ≤ 1 := by
  unfold PixCall.mayDoFor
  split
  · exact Nat.le_refl 1
  · exact Nat.zero_le 1

theorem mayDoFor_eq_zero {receivableId : String} (h : call.settlement = none) : call.mayDoFor receivableId act = 0 := by
  refine if_neg fun hmay => ?_
  rw [h] at hmay
  cases hmay.1

/-- A call does what it might do, or hands it on. -/
theorem mayDoFor_next_le (hact : act ∈ [Act.settleOnChain, .createSettlement]) (hcall : call.Tracked s)
    (hfollows : call.Follows next) (hsettlement : next.settlement = none ∨ next.settlement = call.settlement)
    (receivableId : String) :
    call.done.countP (fun e => e.2 = act ∧ s.receivableOf e.1 = some receivableId) + next.mayDoFor receivableId act ≤
      call.mayDoFor receivableId act := by
  by_cases hmay : next.settlement.map (·.1.receivableId) = some receivableId ∧ act ∈ next.acts
  · obtain ⟨hacts, hdoes⟩ := hfollows.acts act hmay.2
    have hsame : next.settlement = call.settlement := hsettlement.resolve_left fun hnone => by
      rw [hnone] at hmay
      cases hmay.1
    have hcallMay : call.mayDoFor receivableId act = 1 := if_pos ⟨hsame ▸ hmay.1, hacts⟩
    have hdone : call.done.countP (fun e => e.2 = act ∧ s.receivableOf e.1 = some receivableId) = 0 := by
      refine List.countP_eq_zero.mpr fun e he hboth => hdoes ?_
      obtain ⟨callback, -, hact', -⟩ := hcall.of_done he
      rw [hact', (of_decide_eq_true hboth).1]
    rw [hcallMay, hdone, Nat.zero_add]
    exact mayDoFor_le_one
  · rw [show next.mayDoFor receivableId act = 0 from if_neg hmay]
    exact countP_done_le hact hcall receivableId

theorem progress_timesFor {r : PixState σ × Option PixCall} (hs : s.Tracks)
    (hevents : r.1.webhookEvents = s.webhookEvents) (h : Progress call s r) (receivableId : String) :
    r.1.timesFor receivableId act ≤ s.timesFor receivableId act +
      call.done.countP fun e => e.2 = act ∧ s.receivableOf e.1 = some receivableId := by
  rcases h.journal with hjournal | hjournal
  · rw [timesFor_same hs (.of_eq hevents) hjournal]
    exact Nat.le_add_right _ _
  · rw [timesFor_append hs (.of_eq hevents) hjournal]
    unfold PixState.receivableOf
    rw [hevents]

/-- A step adds to what was done and may be done for a receivable only where a call finds it unsettled. -/
theorem resume_timesFor (env : PixEnv σ) (hact : act ∈ [Act.settleOnChain, .createSettlement]) (hs : s.Tracks)
    (hcall : call.Tracked s) (receivableId : String) (reply : PixReply) :
    (resumePixCall env call reply s).1.timesFor receivableId act +
        weight (PixCall.mayDoFor receivableId act) (resumePixCall env call reply s).2 ≤
      s.timesFor receivableId act + call.mayDoFor receivableId act ∨
    (resumePixCall env call reply s).1.timesFor receivableId act +
        weight (PixCall.mayDoFor receivableId act) (resumePixCall env call reply s).2 ≤
      s.timesFor receivableId act + 1 ∧ FindsUnsettled s call receivableId := by
  have hnext := resume_settlement env call reply s
  by_cases hrecord : ∃ callback, call = .recordEvent callback
  · obtain ⟨callback, rfl⟩ := hrecord
    have hweight : weight (PixCall.mayDoFor receivableId act)
        (resumePixCall env (.recordEvent callback) reply s).2 = 0 := by
      refine weight_eq_zero fun next h => mayDoFor_eq_zero ?_
      rcases hnext next h with hnone | hnone | ⟨_, _, _, hcall, -⟩
      · exact hnone
      · exact hnone
      · cases hcall
    have htimes : (resumePixCall env (.recordEvent callback) reply s).1.timesFor receivableId act =
        s.timesFor receivableId act :=
      timesFor_same hs (resume_keepsEvents env _ reply s) (resume_recordEvent_journal callback reply)
    left
    omega
  · have hevents : (resumePixCall env call reply s).1.webhookEvents = s.webhookEvents :=
      resume_webhookEvents (not_exists.mp hrecord) reply s
    have hprogress : Progress call s (resumePixCall env call reply s) := resume_progress (not_exists.mp hrecord) reply s
    have htimes : (resumePixCall env call reply s).1.timesFor receivableId act ≤ _ :=
      progress_timesFor hs hevents hprogress receivableId
    have hdone := countP_done_le hact hcall receivableId
    rcases hr : (resumePixCall env call reply s).2 with _ | next
    · left
      show _ + 0 ≤ _
      omega
    · show _ + next.mayDoFor receivableId act ≤ _ ∨ _ + next.mayDoFor receivableId act ≤ _ ∧ _
      rcases hprogress.next next hr with ⟨rfl, hjournal⟩ | hfollows
      · rw [timesFor_same hs (.of_eq hevents) hjournal]
        exact .inl (Nat.le_refl _)
      · rcases hnext next hr with hnone | hsame | ⟨dto, collection, receivable, rfl, hnew, hfind, hstatus⟩
        · have hle := mayDoFor_next_le hact hcall hfollows (.inl hnone) receivableId
          left
          omega
        · have hle := mayDoFor_next_le hact hcall hfollows (.inr hsame) receivableId
          left
          omega
        · have hnothing : (PixCall.findSettled dto collection).done = [] := rfl
          rw [hnothing] at htimes
          by_cases hid : dto.receivableId = receivableId
          · have hle : next.mayDoFor receivableId act ≤ 1 := mayDoFor_le_one
            exact .inr ⟨Nat.add_le_add htimes hle, dto, collection, receivable, rfl, hid, hfind, hstatus⟩
          · have hother : next.mayDoFor receivableId act = 0 := by
              refine if_neg fun hmay => hid ?_
              rw [hnew] at hmay
              exact Option.some.inj hmay.1
            rw [hother]
            exact .inl (Nat.le_trans htimes (Nat.le_add_right _ _))

/-- The first callback to find a receivable unsettled reserves its settlement. -/
theorem SettlementReserved.step (hc : SettlementReserved c)
    (hcalls : Holds PixState.Tracks (fun s call => call.Tracked s) c) (halone : SettlesAlone c op)
    (hstep : (pixApi env).step c op = .ok c') : SettlementReserved c' := by
  intro receivableId act hact
  cases step_moved hstep with
  | start request hop hc' =>
    subst hop hc'
    refine Nat.le_trans (Nat.le_of_eq (potential_start_eq ?_)) (hc receivableId act hact)
    have hweight : weight (PixCall.mayDoFor receivableId act) (startPixCall env request c.shared).2 = 0 := by
      refine weight_eq_zero fun next hnext => mayDoFor_eq_zero ?_
      rcases start_next hnext with ⟨_, -, rfl⟩ | ⟨_, _, _, -, -, rfl⟩ <;> rfl
    obtain ⟨hjournal, hevents⟩ := start_kept env request c.shared
    show (startPixCall env request c.shared).1.timesFor receivableId act +
      weight _ (startPixCall env request c.shared).2 = _
    rw [hweight, timesFor_same hcalls.1 (.of_eq hevents) hjournal]
    rfl
  | resume i reply call rest hop hcall hperm hc' =>
    subst hop hc'
    have htracked : call.Tracked c.shared := hcalls.2 call (hperm.mem_iff.mpr List.mem_cons_self)
    rcases resume_timesFor env hact hcalls.1 htracked receivableId reply with
      hle | ⟨hle, dto, collection, receivable, rfl, rfl, hfind, hstatus⟩
    · exact Nat.le_trans (potential_resume_le (n := 0) hperm hle) (hc receivableId act hact)
    · have hunsettled := halone _ hcall receivable hfind hstatus act hact
      exact Nat.le_trans (potential_resume_le (n := 1) hperm hle) (Nat.le_of_eq (congrArg (· + 1) hunsettled))
  | crash i call rest hop hperm hc' =>
    subst hc'
    exact Nat.le_trans (potential_crash_le hperm) (hc receivableId act hact)

theorem SettlementReserved.settledOnce (hc : SettlementReserved c) (hs : c.shared.Tracks) : SettledOnce c.shared := by
  intro receivableId
  have hdone : ∀ act ∈ [Act.settleOnChain, .createSettlement], c.shared.timesFor receivableId act ≤ 1 :=
    fun act hact => Nat.le_trans (Nat.le_add_right _ _) (hc receivableId act hact)
  rw [hs.settlements receivableId]
  exact ⟨hdone _ (by simp), hdone _ (by simp)⟩

/-- Where nothing was done yet and no settlement is recorded, no call waits and all holds. -/
theorem nothing_settled (hjournal : s.journal = []) (hsettlements : s.settlements = []) :
    Holds PixState.Tracks (fun s call => PixCall.Tracked s call) (⟨s, []⟩ : Config (PixState σ) PixCall) ∧
      SettlementReserved (⟨s, []⟩ : Config (PixState σ) PixCall) := by
  have htimes : ∀ receivableId act, s.timesFor receivableId act = 0 := by
    intro receivableId act
    unfold PixState.timesFor
    rw [hjournal]
    rfl
  refine ⟨⟨⟨?_, fun receivableId => ?_⟩, List.forall_mem_nil _⟩, fun receivableId act _ => ?_⟩
  · rw [hjournal]
    exact List.forall_mem_nil _
  · rw [hsettlements, htimes]
    rfl
  · show s.timesFor receivableId act + 0 ≤ 1
    rw [htimes]
    exact Nat.zero_le 1

end Reserved

theorem tracks_outline {σ : Type} (env : PixEnv σ) :
    Outline (pixApi env) (fun _ _ => True) (fun _ _ _ => True) PixState.Tracks (fun s call => call.Tracked s)
      KeepsEvents where
  start request _ hs _ := start_tracks env request hs
  resume call reply s hs hcall _ :=
    ⟨resume_tracks hs hcall reply, resume_keepsEvents env call reply s, fun _ hnext => next_tracked hcall hnext⟩
  stable _ _ _ hs hcall := hcall.keeps hs

/-- In every run whose callbacks are alone with the receivables that they find unsettled, each receivable is settled at
    most once in the pool and has at most one row of `Settlement`. -/
theorem receivable_settled_once {σ : Type} (env : PixEnv σ) (s : PixState σ) (hjournal : s.journal = [])
    (hsettlements : s.settlements = []) {ops : List (Op PixRequest PixReply)}
    (halone : Along (pixApi env).step SettlesAlone ⟨s, []⟩ ops) :
    Throughout (pixApi env).step (fun c => SettledOnce c.shared) ⟨s, []⟩ ops := by
  have hinv : Throughout (pixApi env).step
      (fun c => Holds PixState.Tracks (fun s call => PixCall.Tracked s call) c ∧ SettlementReserved c) ⟨s, []⟩ ops := by
    refine throughout_of_along (fun c op c' hc halone hstep => ?_) (nothing_settled hjournal hsettlements) halone
    have hallows := allows_all (fun _ _ => trivial) (fun _ _ _ => trivial) c op
    exact ⟨(tracks_outline env).step hc.1 hallows hstep, hc.2.step hc.1 halone hstep⟩
  exact hinv.mono fun c hc => hc.2.settledOnce hc.1.1

section Examples

instance {σ : Type} (c : Config (PixState σ) PixCall) (receivableId : String) : Decidable (Unsettled c receivableId) :=
  inferInstanceAs (Decidable (∀ act ∈ [Act.settleOnChain, .createSettlement], _ = 0))

instance {σ : Type} (c : Config (PixState σ) PixCall) : (call : PixCall) → Decidable (ReadsAlone c call)
  | .findSettled dto _ => inferInstanceAs (Decidable (∀ r ∈ c.shared.findReceivable dto.receivableId,
      r.status ≠ .other "settled" → Unsettled c dto.receivableId))
  | .recordEvent _ | .loadTransaction _ | .updatePixColumns .. | .failDeposit .. | .mint .. | .approve ..
  | .auditConfirmed .. | .auditMintFailed .. | .updateStatus .. | .auditStatus .. | .findCollection _ | .markPaid ..
  | .findReceivable .. | .auditPaid .. | .settleOnChain .. | .markSettled .. | .createSettlement .. | .recordTxHash ..
  | .burn .. | .createTransaction _ | .auditCreated .. | .orderWithdrawal .. | .setPixOrder .. => instDecidableTrue

instance {σ : Type} (c : Config (PixState σ) PixCall) :
    (op : Op PixRequest PixReply) → Decidable (SettlesAlone c op)
  | .resume i _ => inferInstanceAs (Decidable (∀ call ∈ c.calls[i]?, ReadsAlone c call))
  | .start _ | .crash _ => instDecidableTrue

def mockPoolEnv : PixEnv Unit := { testPixEnv with poolContractConfigured := false }

def paidReceivable : ReceivableRow where
  id := "aaaaaaaa-bbbb-cccc-dddd-eeeeeeeeeeee"
  userId := "pme"
  value := 60
  status := .active
  debtorName := "debtor"
  debtorDocument := "12345678000195"
  documentHash := none
  dueDate := 1798761600000

def paidCharge (eventId : String) : Op PixRequest PixReply :=
  .start (.callback (.collection ⟨eventId, eventId, paidReceivable.id, eventId, "PAID", 60, none, none⟩))

def answers (n : Nat) : List (Op PixRequest PixReply) := List.replicate n (.resume 0 (.ok "1"))

/-- The first callback is lost before it reads the status, the second settles, and the third finds the receivable
    settled. -/
theorem receivable_settled_once_lost :
    Throughout (pixApi mockPoolEnv).step (fun c => SettledOnce c.shared)
      ⟨{ chain := (), receivables := [paidReceivable] }, []⟩
      (paidCharge "event-1" :: answers 4 ++ .crash 0 :: paidCharge "event-2" :: answers 7 ++
        paidCharge "event-3" :: answers 5) :=
  receivable_settled_once mockPoolEnv _ rfl rfl (by decide +kernel)

/-- Two charges are paid, and both callbacks read the status before either writes it: two rows of `Settlement`. -/
theorem receivable_settled_twice :
    ¬Throughout (pixApi mockPoolEnv).step (fun c => SettledOnce c.shared)
      ⟨{ chain := (), receivables := [paidReceivable] }, []⟩
      (paidCharge "event-1" :: paidCharge "event-2" :: answers 14) :=
  fun h => absurd (h.last paidReceivable.id).2 (by decide +kernel)

end Examples
end CredBridge.Api
