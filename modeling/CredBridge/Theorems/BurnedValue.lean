import CredBridge.Api.PixWithdrawals

/-! # Burned value

A withdrawal burns first and orders the Pix afterwards. From the burn to where the Pix service has taken the order, only
the call knows of it; and what an ended order burned is minted again nowhere, nor is a remediation recorded: the audit log
of a failure tells that it happened. So every burn is covered as long as no call is lost in between, the order is for at
least what was burned, and no callback tells that an order ended without its Pix. -/

namespace CredBridge.Api
open Concurrent Contracts Machine Result Submission
open PixService (PixOrderStatus PixOrderType)

/-- `metadata.burnTxHash`. -/
def namedBurn (metadata : Option Json) : Option String :=
  match metadata.bind (·.field? "burnTxHash") with
  | some (.string hash) => some hash
  | _ => none

/-- A withdrawal of a user names the burn, and is of at least what was burned. -/
def Burn.PaidBy (env : StellarEnv) (b : Burn) (userId : String) (amount : Rat) (metadata : Option Json) : Prop :=
  userId = b.userId ∧ namedBurn metadata = some b.txHash ∧ b.amount ≤ env.stroops amount

def WithdrawalOrder.IsFor (env : StellarEnv) (b : Burn) (order : WithdrawalOrder) : Prop :=
  b.PaidBy env order.request.ownerId order.request.amount order.request.metadata

def PixCall.CarriesBurn (env : StellarEnv) (b : Burn) (call : PixCall) : Prop :=
  ∃ dto ∈ call.withdraws, b.PaidBy env dto.userId dto.amount dto.metadata

/-- The callback tells the status of the order. -/
def WithdrawalOrder.ToldBy (order : WithdrawalOrder) : Callback → Prop
  | .order dto =>
    dto.type = PixOrderType.withdrawal.value ∧ dto.externalId = order.request.externalId ∧
      dto.status = order.status.value
  | .collection _ => False

section Property
variable {σ : Type} (c : Config (PixState σ) PixCall)

/-- The callback of the order's status was answered with a 2xx, and no call is at work on it. -/
def Processed (order : WithdrawalOrder) : Prop :=
  ∃ callback ∈ c.shared.acknowledged, order.ToldBy callback ∧ ∀ call ∈ c.calls, call.callback? ≠ some callback

/-- The order is in flight or confirmed, or its callback is still to be processed; of a cancellation there is none. Nothing
    that a callback does for another end mints what was burned, or records that somebody is to. -/
def Accounted (order : WithdrawalOrder) : Prop :=
  order.status ∉ [.failed, .expired, .canceled, .refunded] ∨ order.status ≠ .canceled ∧ ¬Processed c order

/-- Each burn that was confirmed to `submitWithdrawal` has an order that is accounted for, once its call is over. -/
def BurnsCovered (env : StellarEnv) : Prop :=
  ∀ b ∈ c.shared.burns, (∃ call ∈ c.calls, call.CarriesBurn env b) ∨
    ∃ order ∈ c.shared.withdrawalOrders, order.IsFor env b ∧ Accounted c order

end Property

/-! ### The condition -/

/-- The callback tells of a withdrawal that ended without its Pix. -/
def Callback.TellsLoss : Callback → Prop
  | .order dto =>
    dto.type = PixOrderType.withdrawal.value ∧
      dto.status ∈ [PixOrderStatus.failed, .expired, .refunded].map PixOrderStatus.value
  | .collection _ => False

section Condition
variable {σ : Type} (env : StellarEnv) (s : PixState σ)

/-- The Pix service has no order for what the call withdraws. -/
def PixState.Unordered (call : PixCall) : Prop :=
  ∃ dto ∈ call.withdraws, ¬∃ order ∈ s.withdrawalOrders, order.request.ownerId = dto.userId ∧
    order.request.amount = dto.amount ∧ namedBurn order.request.metadata = namedBurn dto.metadata

/-- The signed transaction burns more than the request names. -/
def PixCall.overburns : PixCall → Bool
  | .burn userId dto tx => (tx.burnOf userId).any fun b => decide (env.stroops dto.amount < b.amount)
  | _ => false

def PixReply.confirms : PixReply → Bool
  | .submitted .confirmed _ _ _ => true
  | _ => false

/-- No transaction is confirmed that burns more than its request names; what carries a burn goes on to its order. -/
def SecuredReply (call : PixCall) (reply : PixReply) : Prop :=
  (call.overburns env = true → reply.confirms = false) ∧ (s.Unordered call → Advances s reply call)

/-- From its burn to its order a call neither crashes nor fails, and burns what it orders; no order is canceled, and no
    callback tells that one ended without its Pix. -/
def Secured (c : Config (PixState σ) PixCall) : Op PixRequest PixReply → Prop
  | .start (.moveOrder externalId status) =>
    status = .canceled → ∀ order ∈ c.shared.withdrawalOrders, order.request.externalId ≠ externalId
  | .start (.callback callback) => ¬callback.TellsLoss
  | .start (.submitWithdrawal ..) => True
  | .resume i reply => ∀ call ∈ c.calls[i]?, SecuredReply env c.shared call reply
  | .crash i => ∀ call ∈ c.calls[i]?, ¬c.shared.Unordered call

end Condition

/-! ### The burns -/

section Burns
variable {σ : Type} {env : PixEnv σ} {s s' : PixState σ} {call : PixCall} {reply : PixReply} {b : Burn}

def PixState.BurnOrdered (env : StellarEnv) (s : PixState σ) (b : Burn) : Prop :=
  ∃ order ∈ s.withdrawalOrders, order.IsFor env b

theorem PixState.BurnOrdered.grows (h : s.BurnOrdered env.toStellarEnv b) (hgrows : s.Grows s') :
    s'.BurnOrdered env.toStellarEnv b := by
  obtain ⟨order, horder, hfor⟩ := h
  obtain ⟨order', horder', hrequest⟩ := hgrows.withdrawalOrder order horder
  refine ⟨order', horder', ?_⟩
  unfold WithdrawalOrder.IsFor
  rw [hrequest]
  exact hfor

/-- A burn that is carried on by a call, and of which the Pix service has an order, is ordered. -/
theorem burnOrdered_of_ordered (hcarries : call.CarriesBurn env.toStellarEnv b) (hordered : ¬s.Unordered call) :
    s.BurnOrdered env.toStellarEnv b := by
  obtain ⟨dto, hdto, huser, hburn, hamount⟩ := hcarries
  have hexists : ∃ order ∈ s.withdrawalOrders, order.request.ownerId = dto.userId ∧ order.request.amount = dto.amount ∧
      namedBurn order.request.metadata = namedBurn dto.metadata := by
    by_contra hnone
    exact hordered ⟨dto, hdto, hnone⟩
  obtain ⟨order, horder, howner, hsame, hnamed⟩ := hexists
  exact ⟨order, horder, howner.trans huser, hnamed.trans hburn, hsame ▸ hamount⟩

theorem burnOf_eq_some {tx : LedgerTx} {userId : String} (h : tx.burnOf userId = some b) :
    b.userId = userId ∧ b.txHash = tx.hash := by
  unfold LedgerTx.burnOf at h
  split at h <;> cases h
  exact ⟨rfl, rfl⟩

/-- A new burn is carried on by the call it was confirmed to. -/
theorem withdrawn_brings {r : PixState σ × Option PixCall} (h : Withdrawn env s r call reply)
    (hcall : call.HasUser env) (hsecured : SecuredReply env.toStellarEnv s call reply) (hb : b ∈ r.1.burns) :
    b ∈ s.burns ∨ ∃ next ∈ r.2, next.CarriesBurn env.toStellarEnv b := by
  cases h with
  | waits _ _ hr | created _ _ _ hr | audited _ _ _ _ hr =>
    subst hr
    exact .inl hb
  | ended _ _ _ _ hburns _ => exact .inl (hburns ▸ hb)
  | burned userId dto tx _ _ _ _ hburns hnext _ =>
    rw [hburns] at hb
    refine (List.mem_append.mp hb).imp_right fun hnew => ?_
    have hnew : tx.burnOf userId = some b := Option.mem_toList.mp hnew
    obtain ⟨huser, hhash⟩ := burnOf_eq_some hnew
    refine ⟨_, hnext hcall, withdrawalDto userId dto tx.hash, rfl, huser.symm, congrArg some hhash.symm, ?_⟩
    show b.amount ≤ env.stroops dto.amount
    by_contra hover
    have hoverburns : (PixCall.burn userId dto tx).overburns env.toStellarEnv = true :=
      Option.any_eq_true _ _ |>.mpr ⟨b, hnew, decide_eq_true (Int.not_le.mp hover)⟩
    cases hsecured.1 hoverburns
  | ordered t dto _ hr _ =>
    rw [hr] at hb
    unfold PixState.orderWithdrawal at hb
    split at hb <;> exact .inl hb

/-- A call that carries a burn and does not fail carries it on, until it is ordered. -/
theorem withdrawn_carries {r : PixState σ × Option PixCall} (h : Withdrawn env s r call reply)
    (hadvances : s.Unordered call → Advances s reply call)
    (hfree : ∀ t dto, call = .orderWithdrawal t dto → s.ordersOf t.id = 0)
    (hcarries : call.CarriesBurn env.toStellarEnv b) :
    r.1.BurnOrdered env.toStellarEnv b ∨ ∃ next ∈ r.2, next.CarriesBurn env.toStellarEnv b := by
  cases h with
  | waits _ _ hr =>
    subst hr
    exact .inr ⟨call, rfl, hcarries⟩
  | ended _ _ hreply horders _ _ =>
    have hordered : ¬s.Unordered call := fun hunordered => by
      obtain ⟨dto, hdto, -⟩ := hcarries
      exact (hreply.resolve_left fun hnone => by rw [hnone] at hdto; cases hdto) (hadvances hunordered)
    obtain ⟨order, horder, hfor⟩ := burnOrdered_of_ordered hcarries hordered
    exact .inl ⟨order, horders ▸ horder, hfor⟩
  | burned =>
    obtain ⟨dto, hdto, -⟩ := hcarries
    cases hdto
  | created dto value hfresh hr =>
    subst hr
    exact .inr ⟨_, rfl, hcarries⟩
  | audited t dto value log hr =>
    subst hr
    exact .inr ⟨_, rfl, hcarries⟩
  | ordered t dto _ hr _ =>
    obtain ⟨_, hdto, hpaid⟩ := hcarries
    cases hdto
    refine .inl ⟨⟨pixWithdrawal env.users t.toTransaction _, .processing⟩, ?_, hpaid⟩
    rw [hr]
    exact mem_orderWithdrawal (hfree t _ rfl)

end Burns

/-! ### Runs -/

section Runs
variable {σ : Type} {env : PixEnv σ} {s : PixState σ} {c c' : Config (PixState σ) PixCall} {op : Op PixRequest PixReply}
  {call : PixCall} {callback : Callback}

/-- Every burn has an order or a call that carries it on; no order is canceled, and no callback that is or was processed
    tells of a loss. -/
structure BurnsTended (env : PixEnv σ) (c : Config (PixState σ) PixCall) : Prop where
  hasUser : ∀ call ∈ c.calls, call.HasUser env
  burns : Discharged (fun b s => b ∈ s.burns) (fun b s => s.BurnOrdered env.toStellarEnv b)
    (fun b call => call.CarriesBurn env.toStellarEnv b) c
  orders : ∀ order ∈ c.shared.withdrawalOrders, order.status ≠ .canceled
  handled : ∀ call ∈ c.calls, ∀ callback, call.callback? = some callback → ¬callback.TellsLoss
  acknowledged : ∀ callback ∈ c.shared.acknowledged, ¬callback.TellsLoss
  orderedOnce : OrderedOnce c

theorem tellsLoss_of_toldBy {order : WithdrawalOrder} (htold : order.ToldBy callback)
    (hlost : order.status ∈ [.failed, .expired, .canceled, .refunded]) (hcanceled : order.status ≠ .canceled) :
    callback.TellsLoss := by
  cases callback with
  | collection dto => exact htold
  | order dto =>
    obtain ⟨htype, -, hstatus⟩ := htold
    refine ⟨htype, hstatus ▸ List.mem_map_of_mem ?_⟩
    simpa [hcanceled] using hlost

theorem BurnsTended.covered (hc : BurnsTended env c) : BurnsCovered c env.toStellarEnv := by
  intro b hb
  rcases hc.burns b hb with ⟨order, horder, hfor⟩ | hcarried
  · have hcanceled := hc.orders order horder
    refine .inr ⟨order, horder, hfor, ?_⟩
    by_cases hlost : order.status ∈ [.failed, .expired, .canceled, .refunded]
    · refine .inr ⟨hcanceled, fun ⟨callback, hack, htold, _⟩ => ?_⟩
      exact hc.acknowledged callback hack (tellsLoss_of_toldBy htold hlost hcanceled)
    · exact .inl hlost
  · exact .inl hcarried

/-! What a step keeps -/

theorem burns_resume {reply : PixReply} {rest : List PixCall} (hc : BurnsTended env c)
    (hcalls : c.calls.Perm (call :: rest)) (hsecured : SecuredReply env.toStellarEnv c.shared call reply) :
    Discharged (fun b (s : PixState σ) => b ∈ s.burns) (fun b s => s.BurnOrdered env.toStellarEnv b)
      (fun b call => call.CarriesBurn env.toStellarEnv b) (.after rest (resumePixCall env call reply c.shared)) := by
  have hgrows := resume_grows env call reply c.shared
  have hmem : call ∈ c.calls := hcalls.mem_iff.mpr List.mem_cons_self
  cases hcallback : call.callback? with
  | none =>
    have hstep : Withdrawn env c.shared _ call reply := resume_withdrawn hcallback reply c.shared
    exact hc.burns.resume hcalls
      (fun b => ⟨fun h => h.grows hgrows,
        fun h => (withdrawn_brings hstep (hc.hasUser call hmem) hsecured h).imp_right .inr⟩)
      fun b _ hcarries =>
        withdrawn_carries hstep hsecured.2 (fun _ _ h => hc.orderedOnce.free hmem h) hcarries
  | some callback =>
    have hframe : (resumePixCall env call reply c.shared).1.ordersAndBurns = c.shared.ordersAndBurns :=
      resume_frame hcallback
    obtain ⟨-, hburns⟩ := ordersAndBurns_eq hframe
    refine hc.burns.resume hcalls (fun b => ⟨fun h => h.grows hgrows, fun h => .inl (hburns ▸ h)⟩) fun b _ hcarries => ?_
    obtain ⟨dto, hdto, -⟩ := hcarries
    rw [withdraws_of_callback hcallback] at hdto
    cases hdto

theorem orders_resume (reply : PixReply) (hs : ∀ order ∈ s.withdrawalOrders, order.status ≠ .canceled) :
    ∀ order ∈ (resumePixCall env call reply s).1.withdrawalOrders, order.status ≠ .canceled := by
  cases hcallback : call.callback? with
  | some callback =>
    rw [(ordersAndBurns_eq (resume_frame hcallback)).1]
    exact hs
  | none =>
    have hstep : Withdrawn env s (resumePixCall env call reply s) call reply := resume_withdrawn hcallback reply s
    cases hstep with
    | waits _ _ hr | created _ _ _ hr | audited _ _ _ _ hr =>
      rw [hr]
      exact hs
    | ended _ _ _ horders _ _ | burned _ _ _ _ _ _ horders _ _ _ =>
      rw [horders]
      exact hs
    | ordered t dto _ hr _ =>
      rw [hr]
      unfold PixState.orderWithdrawal
      split
      · exact hs
      · intro order horder
        rcases List.mem_append.mp horder with horder | horder
        · exact hs order horder
        · obtain rfl := List.mem_singleton.mp horder
          show PixOrderStatus.processing ≠ .canceled
          decide

theorem BurnsTended.resume {reply : PixReply} {rest : List PixCall} (hc : BurnsTended env c)
    (hcalls : c.calls.Perm (call :: rest)) (hsecured : SecuredReply env.toStellarEnv c.shared call reply) :
    BurnsTended env (.after rest (resumePixCall env call reply c.shared)) where
  hasUser call' h := by
    have hmem := fun call' h => hcalls.mem_iff.mpr (List.mem_cons_of_mem call (a := call') h)
    rcases List.mem_append.mp h with h | h
    · exact hc.hasUser call' (hmem call' h)
    · exact resume_hasUser (hc.hasUser call (hcalls.mem_iff.mpr List.mem_cons_self)) reply c.shared call'
        (Option.mem_toList.mp h)
  burns := burns_resume hc hcalls hsecured
  orders := orders_resume reply hc.orders
  handled call' h callback hcallback := by
    rcases List.mem_append.mp h with h | h
    · exact hc.handled call' (hcalls.mem_iff.mpr (List.mem_cons_of_mem _ h)) callback hcallback
    · exact hc.handled call (hcalls.mem_iff.mpr List.mem_cons_self) callback
        ((next_callback (Option.mem_toList.mp h)).symm.trans hcallback)
  acknowledged callback h := by
    rcases resume_acknowledged h with hold | ⟨hcallback, -⟩
    · exact hc.acknowledged callback hold
    · exact hc.handled call (hcalls.mem_iff.mpr List.mem_cons_self) callback hcallback
  orderedOnce := orderedOnce_resume hc.orderedOnce hcalls

theorem orders_start {request : PixRequest} (hs : ∀ order ∈ c.shared.withdrawalOrders, order.status ≠ .canceled)
    (hsecured : Secured env.toStellarEnv c (.start request)) :
    ∀ order ∈ (startPixCall env request c.shared).1.withdrawalOrders, order.status ≠ .canceled := by
  cases startPixCall_received env request c.shared with
  | answered _ _ hr | recording _ hr | refused _ _ hr | burning _ _ _ _ hr =>
    rw [hr]
    exact hs
  | moved externalId status hr =>
    rw [hr]
    intro order' horder'
    obtain ⟨order, horder, rfl⟩ := Table.mem_modify.mp horder'
    split
    · next hid => exact fun hcanceled => hsecured hcanceled order horder hid
    · exact hs order horder

theorem prepareWithdrawal_user {users : String → Option User} {stellar : StellarEnv} {userId : String}
    {dto : SubmitWithdrawalDto} {tx : LedgerTx} (h : prepareWithdrawal stellar users userId dto = .ok tx) :
    (users userId).isSome = true := by
  obtain ⟨address, haddress, -⟩ := bind_eq_ok.mp h
  obtain ⟨user, huser, -⟩ := Option.bind_eq_some_iff.mp (orThrow_eq_ok.mp haddress)
  rw [huser]
  rfl

theorem BurnsTended.start {request : PixRequest} (hc : BurnsTended env c)
    (hsecured : Secured env.toStellarEnv c (.start request)) :
    BurnsTended env (.after c.calls (startPixCall env request c.shared)) where
  hasUser call h := by
    rcases List.mem_append.mp h with h | h
    · exact hc.hasUser call h
    · rcases start_next (Option.mem_toList.mp h) with ⟨callback, -, rfl⟩ | ⟨userId, dto, tx, -, hprepared, rfl⟩
      · trivial
      · exact prepareWithdrawal_user hprepared
  burns := hc.burns.start fun b =>
    ⟨fun h => h.grows (start_grows env request c.shared),
      fun h => .inl ((start_ordersAndBurns env request c.shared).1 ▸ h)⟩
  orders := orders_start hc.orders hsecured
  handled call h callback hcallback := by
    rcases List.mem_append.mp h with h | h
    · exact hc.handled call h callback hcallback
    · rcases start_next (Option.mem_toList.mp h) with ⟨callback', rfl, rfl⟩ | ⟨userId, dto, tx, -, -, rfl⟩
      · cases hcallback
        exact hsecured
      · cases hcallback
  acknowledged callback h := by
    rcases start_acknowledged h with hold | ⟨rfl, -⟩
    · exact hc.acknowledged callback hold
    · exact hsecured
  orderedOnce := orderedOnce_start env hc.orderedOnce request

theorem BurnsTended.crash {rest : List PixCall} (hc : BurnsTended env c) (hcalls : c.calls.Perm (call :: rest))
    (hsecured : ¬c.shared.Unordered call) : BurnsTended env ⟨c.shared, rest⟩ where
  hasUser call' h := hc.hasUser call' (hcalls.mem_iff.mpr (List.mem_cons_of_mem _ h))
  burns := hc.burns.crash hcalls fun _ _ hcarries => burnOrdered_of_ordered hcarries hsecured
  orders := hc.orders
  handled call' h := hc.handled call' (hcalls.mem_iff.mpr (List.mem_cons_of_mem _ h))
  acknowledged := hc.acknowledged
  orderedOnce id := (potential_crash_le hcalls).trans (hc.orderedOnce id)

theorem BurnsTended.step (hc : BurnsTended env c) (hsecured : Secured env.toStellarEnv c op)
    (hstep : (pixApi env).step c op = .ok c') : BurnsTended env c' := by
  cases step_moved hstep with
  | start request hop hc' =>
    subst hop hc'
    exact hc.start hsecured
  | resume i reply call rest hop hcall hcalls hc' =>
    subst hop hc'
    exact hc.resume hcalls (hsecured call hcall)
  | crash i call rest hop hcalls hc' =>
    subst hop
    obtain ⟨call, rest, hcall, hcalls, rfl⟩ := crash_lost hstep
    exact hc.crash hcalls (hsecured call hcall)

theorem BurnsTended.nothing_burned (hburns : s.burns = []) (horders : s.withdrawalOrders = [])
    (hacknowledged : s.acknowledged = []) : BurnsTended env ⟨s, []⟩ where
  hasUser := List.forall_mem_nil _
  burns b h := by
    change b ∈ s.burns at h
    rw [hburns] at h
    cases h
  orders order h := by
    change order ∈ s.withdrawalOrders at h
    rw [horders] at h
    cases h
  handled := List.forall_mem_nil _
  acknowledged callback h := by
    change callback ∈ s.acknowledged at h
    rw [hacknowledged] at h
    cases h
  orderedOnce id := by
    show (s.withdrawalOrders.map (·.request.externalId)).count id + 0 ≤ _
    rw [horders]
    exact Nat.zero_le _

end Runs

/-- In every run whose steps are secured, each confirmed burn has a call that carries it on, or an order of at least what
    was burned that is in flight or confirmed, or whose callback is still to be processed. -/
theorem burns_covered {σ : Type} (env : PixEnv σ) (s : PixState σ) (hburns : s.burns = [])
    (horders : s.withdrawalOrders = []) (hacknowledged : s.acknowledged = []) (ops : List (Op PixRequest PixReply))
    (hsecured : Along (pixApi env).step (Secured env.toStellarEnv) ⟨s, []⟩ ops) :
    Throughout (pixApi env).step (BurnsCovered · env.toStellarEnv) ⟨s, []⟩ ops :=
  (throughout_of_along (fun _ _ _ hc h hstep => hc.step h hstep)
    (BurnsTended.nothing_burned hburns horders hacknowledged) hsecured).mono fun _ hc => hc.covered

section Examples

instance (env : StellarEnv) (b : Burn) (userId : String) (amount : Rat) (metadata : Option Json) :
    Decidable (b.PaidBy env userId amount metadata) := inferInstanceAs (Decidable (_ ∧ _ ∧ _))

instance (env : StellarEnv) (b : Burn) (order : WithdrawalOrder) : Decidable (order.IsFor env b) :=
  inferInstanceAs (Decidable (b.PaidBy ..))

instance (env : StellarEnv) (b : Burn) (call : PixCall) : Decidable (call.CarriesBurn env b) :=
  inferInstanceAs (Decidable (∃ dto ∈ call.withdraws, b.PaidBy env dto.userId dto.amount dto.metadata))

instance (order : WithdrawalOrder) : (callback : Callback) → Decidable (order.ToldBy callback)
  | .order dto => inferInstanceAs (Decidable (dto.type = PixOrderType.withdrawal.value ∧
      dto.externalId = order.request.externalId ∧ dto.status = order.status.value))
  | .collection _ => instDecidableFalse

instance {σ : Type} (c : Config (PixState σ) PixCall) (order : WithdrawalOrder) : Decidable (Processed c order) :=
  inferInstanceAs (Decidable (∃ callback ∈ c.shared.acknowledged, order.ToldBy callback ∧
    ∀ call ∈ c.calls, call.callback? ≠ some callback))

instance {σ : Type} (c : Config (PixState σ) PixCall) (order : WithdrawalOrder) : Decidable (Accounted c order) :=
  inferInstanceAs (Decidable (order.status ∉ [.failed, .expired, .canceled, .refunded] ∨
    order.status ≠ .canceled ∧ ¬Processed c order))

instance {σ : Type} (c : Config (PixState σ) PixCall) (env : StellarEnv) : Decidable (BurnsCovered c env) :=
  inferInstanceAs (Decidable (∀ b ∈ c.shared.burns, (∃ call ∈ c.calls, call.CarriesBurn env b) ∨
    ∃ order ∈ c.shared.withdrawalOrders, order.IsFor env b ∧ Accounted c order))

instance (callback : Callback) : Decidable callback.TellsLoss :=
  match callback with
  | .order dto => inferInstanceAs (Decidable (dto.type = PixOrderType.withdrawal.value ∧
      dto.status ∈ [PixOrderStatus.failed, .expired, .refunded].map PixOrderStatus.value))
  | .collection _ => instDecidableFalse

instance {σ : Type} (s : PixState σ) (call : PixCall) : Decidable (s.Unordered call) :=
  inferInstanceAs (Decidable (∃ dto ∈ call.withdraws, ¬∃ order ∈ s.withdrawalOrders, order.request.ownerId = dto.userId ∧
    order.request.amount = dto.amount ∧ namedBurn order.request.metadata = namedBurn dto.metadata))

instance {σ : Type} (env : StellarEnv) (s : PixState σ) (call : PixCall) (reply : PixReply) :
    Decidable (SecuredReply env s call reply) :=
  inferInstanceAs (Decidable ((call.overburns env = true → reply.confirms = false) ∧
    (s.Unordered call → Advances s reply call)))

instance {σ : Type} (env : StellarEnv) (c : Config (PixState σ) PixCall) :
    (op : Op PixRequest PixReply) → Decidable (Secured env c op)
  | .start (.moveOrder externalId status) =>
    inferInstanceAs (Decidable (status = .canceled → ∀ order ∈ c.shared.withdrawalOrders,
      order.request.externalId ≠ externalId))
  | .start (.callback callback) => inferInstanceAs (Decidable (¬callback.TellsLoss))
  | .start (.submitWithdrawal ..) => instDecidableTrue
  | .resume i reply => inferInstanceAs (Decidable (∀ call ∈ c.calls[i]?, SecuredReply env c.shared call reply))
  | .crash i => inferInstanceAs (Decidable (∀ call ∈ c.calls[i]?, ¬c.shared.Unordered call))

/-- A withdrawal of what a user names, whose signed transaction burns 50. -/
def burnConfirmed (amount : Rat) : List (Op PixRequest PixReply) :=
  [.start (.submitWithdrawal "investor" ⟨amount, "key", "EVP", "burn", "signature"⟩),
    .resume 0 (.submitted .confirmed 0 "burn-hash" ""), .resume 0 (.ok "withdrawal"), .resume 0 (.ok "")]

/-- The order that follows moves to a status, and its callback is processed. -/
def orderEnds (status : PixOrderStatus) (statements : Nat) : List (Op PixRequest PixReply) :=
  [.resume 0 (.ok "order"), .resume 0 (.ok ""), .start (.moveOrder "withdrawal" status),
    .start (.callback (.order
      { eventId := "event", externalId := "withdrawal", type := "WITHDRAWAL", status := status.value, amount := 50,
        pixOrderId := "order", identifier := "identifier", paymentId := none, transactionId := none, endToEndId := none,
        confirmedAt := none, failureReason := none }))] ++ List.replicate statements (.resume 0 (.ok ""))

/-- The Pix Out is confirmed, and its callback is processed. -/
theorem burns_covered_confirmed :
    Throughout (pixApi testPixEnv).step (BurnsCovered · testPixEnv.toStellarEnv) ⟨{ chain := () }, []⟩
      (burnConfirmed 50 ++ orderEnds .confirmed 5) :=
  burns_covered testPixEnv { chain := () } rfl rfl rfl _ (by decide +kernel)

/-- The Pix service does not answer after the burn; or the order fails or is refunded, and the callback is processed; or it
    is canceled; or it is of 1. -/
theorem burned_value_lost :
    ¬Throughout (pixApi testPixEnv).step (BurnsCovered · testPixEnv.toStellarEnv) ⟨{ chain := () }, []⟩
        (burnConfirmed 50 ++ [.resume 0 (.threw none "timeout")]) ∧
      ¬Throughout (pixApi testPixEnv).step (BurnsCovered · testPixEnv.toStellarEnv) ⟨{ chain := () }, []⟩
        (burnConfirmed 50 ++ orderEnds .failed 5) ∧
      ¬Throughout (pixApi testPixEnv).step (BurnsCovered · testPixEnv.toStellarEnv) ⟨{ chain := () }, []⟩
        (burnConfirmed 50 ++ orderEnds .refunded 3) ∧
      ¬Throughout (pixApi testPixEnv).step (BurnsCovered · testPixEnv.toStellarEnv) ⟨{ chain := () }, []⟩
        (burnConfirmed 50 ++ [.resume 0 (.ok "order"), .resume 0 (.ok ""), .start (.moveOrder "withdrawal" .canceled)]) ∧
      ¬Throughout (pixApi testPixEnv).step (BurnsCovered · testPixEnv.toStellarEnv) ⟨{ chain := () }, []⟩
        (burnConfirmed 1 ++ [.resume 0 (.ok "order"), .resume 0 (.ok "")]) :=
  ⟨fun h => absurd h.last (by decide +kernel), fun h => absurd h.last (by decide +kernel),
    fun h => absurd h.last (by decide +kernel), fun h => absurd h.last (by decide +kernel),
    fun h => absurd h.last (by decide +kernel)⟩

end Examples
end CredBridge.Api
