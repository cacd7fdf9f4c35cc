import CredBridge.Api.PixEffects

/-! # Withdrawals, call by call

What one step does for a withdrawal, and that a transaction has at most one order at the Pix service. -/

namespace CredBridge.Api
open Concurrent Contracts Machine Result Submission

/-- What a withdrawal is still to order. -/
def PixCall.withdraws : PixCall → Option CreatePixWithdrawalDto
  | .createTransaction dto | .auditCreated _ dto | .orderWithdrawal _ dto => some dto
  | _ => none

section Condition
variable {σ : Type} (s : PixState σ)

/-- A new transaction gets a new identifier, and nothing throws before the Pix service has the order. -/
def Advances : PixReply → PixCall → Bool
  | .ok value, .createTransaction _ => !(s.findTransaction value).isSome
  | .ok _, _ => true
  | .threw executed _, .orderWithdrawal .. => executed.isSome
  | .threw .., _ => false
  | .submitted .., _ => true

end Condition

/-! ### A step of a withdrawal -/

/-- What a withdrawal did: nothing new for burns and orders, it was told of its burn, it went on towards its order, or the
    Pix service has the order. -/
inductive Withdrawn {σ : Type} (env : PixEnv σ) (s : PixState σ) (r : PixState σ × Option PixCall) :
    PixCall → PixReply → Prop where
  | waits (call : PixCall) (reply : PixReply) (hr : r = (s, some call)) : Withdrawn env s r call reply
  | ended (call : PixCall) (reply : PixReply) (hreply : call.withdraws = none ∨ ¬Advances s reply call)
      (horders : r.1.withdrawalOrders = s.withdrawalOrders) (hburns : r.1.burns = s.burns) (hover : r.2 = none) :
    Withdrawn env s r call reply
  | burned (userId : String) (dto : SubmitWithdrawalDto) (tx : LedgerTx) (time : Nat) (txHash message : String)
      (horders : r.1.withdrawalOrders = s.withdrawalOrders) (hburns : r.1.burns = s.burns ++ (tx.burnOf userId).toList)
      (hnext : (env.users userId).isSome = true →
        r.2 = some (.createTransaction (withdrawalDto userId dto tx.hash)))
      (hsome : ∀ next ∈ r.2, next = .createTransaction (withdrawalDto userId dto tx.hash)) :
    Withdrawn env s r (.burn userId dto tx) (.submitted .confirmed time txHash message)
  | created (dto : CreatePixWithdrawalDto) (value : String) (hfresh : s.findTransaction value = none)
      (hr : r =
        ({ s with transactions := s.transactions ++ [{ toTransaction := withdrawalTransaction dto value }] },
          some (.auditCreated { toTransaction := withdrawalTransaction dto value } dto))) :
    Withdrawn env s r (.createTransaction dto) (.ok value)
  | audited (t : PixTransaction) (dto : CreatePixWithdrawalDto) (value : String) (log : AuditLog)
      (hr : r = (s.audit log, some (.orderWithdrawal t dto))) : Withdrawn env s r (.auditCreated t dto) (.ok value)
  | ordered (t : PixTransaction) (dto : CreatePixWithdrawalDto) (reply : PixReply)
      (hr : r.1 = s.orderWithdrawal (pixWithdrawal env.users t.toTransaction dto))
      (hnext : ∀ next ∈ r.2, ∃ pixOrderId, next = .setPixOrder t pixOrderId) :
    Withdrawn env s r (.orderWithdrawal t dto) reply

section Withdrawn
variable {σ : Type} {env : PixEnv σ} {s : PixState σ} {call : PixCall} {reply : PixReply}

theorem burn_withdrawn {userId : String} {dto : SubmitWithdrawalDto} {tx : LedgerTx} (reply : PixReply)
    (s : PixState σ) :
    Withdrawn env s (resumePixCall env (.burn userId dto tx) reply s) (.burn userId dto tx) reply := by
  cases resumePixCall_stepped env (.burn userId dto tx) reply s with
  | waits _ hr => exact .waits _ _ hr
  | ok value hsubmits => cases hsubmits
  | threw executed message hr =>
    rw [hr]
    cases executed <;> exact .ended _ _ (.inl rfl) rfl rfl rfl
  | never _ _ _ _ _ _ _ hr | late _ _ _ _ _ _ _ _ hr =>
    rw [hr]
    exact .ended _ _ (.inl rfl) rfl rfl rfl
  | confirmed _ time txHash message _ chain _ hfate hr =>
    rw [hr]
    obtain rfl := fate_of_inTime hfate
    simp only [PixCall.confirmed, PixCall.landed]
    cases huser : env.users userId with
    | none =>
      exact .burned userId dto tx _ _ _ rfl rfl (fun h => by rw [huser] at h; cases h) fun _ h => by cases h
    | some user =>
      exact .burned userId dto tx _ _ _ rfl rfl (fun _ => rfl) fun _ h => (Option.some.inj h).symm

theorem createTransaction_withdrawn {dto : CreatePixWithdrawalDto} (reply : PixReply) (s : PixState σ) :
    Withdrawn env s (resumePixCall env (.createTransaction dto) reply s) (.createTransaction dto) reply := by
  cases reply with
  | ok value =>
    have hr : resumePixCall env (.createTransaction dto) (.ok value) s =
        (PixCall.createTransaction dto).goOn ((PixCall.createTransaction dto).execute env value s)
          ((PixCall.createTransaction dto).proceed env value s) := rfl
    rw [hr]
    simp only [PixCall.execute, PixCall.proceed]
    cases hfind : s.findTransaction value with
    | none => exact .created dto value hfind rfl
    | some t =>
      have hreply : ¬Advances s (.ok value) (.createTransaction dto) := by
        intro h
        change (!(s.findTransaction value).isSome) = true at h
        rw [hfind] at h
        cases h
      exact .ended _ _ (.inr hreply) rfl rfl rfl
  | threw executed message =>
    have hexecute : ∀ value, ((PixCall.createTransaction dto).execute env value s).withdrawalOrders =
        s.withdrawalOrders ∧ ((PixCall.createTransaction dto).execute env value s).burns = s.burns := by
      intro value
      simp only [PixCall.execute]
      split <;> exact ⟨rfl, rfl⟩
    cases executed with
    | none => exact .ended _ _ (.inr Bool.false_ne_true) rfl rfl rfl
    | some value => exact .ended _ _ (.inr Bool.false_ne_true) (hexecute value).1 (hexecute value).2 rfl
  | submitted fate time txHash message => exact .waits _ _ rfl

theorem auditCreated_withdrawn {t : PixTransaction} {dto : CreatePixWithdrawalDto} (reply : PixReply)
    (s : PixState σ) :
    Withdrawn env s (resumePixCall env (.auditCreated t dto) reply s) (.auditCreated t dto) reply := by
  cases reply with
  | ok value => exact .audited t dto value _ rfl
  | threw executed message => cases executed <;> exact .ended _ _ (.inr Bool.false_ne_true) rfl rfl rfl
  | submitted fate time txHash message => exact .waits _ _ rfl

theorem orderWithdrawal_withdrawn {t : PixTransaction} {dto : CreatePixWithdrawalDto} (reply : PixReply)
    (s : PixState σ) :
    Withdrawn env s (resumePixCall env (.orderWithdrawal t dto) reply s) (.orderWithdrawal t dto) reply := by
  cases reply with
  | ok value => exact .ordered t dto _ rfl fun next hnext => ⟨value, (Option.some.inj hnext).symm⟩
  | threw executed message =>
    cases executed with
    | none => exact .ended _ _ (.inr Bool.false_ne_true) rfl rfl rfl
    | some value => exact .ordered t dto _ rfl fun next hnext => by cases hnext
  | submitted fate time txHash message => exact .waits _ _ rfl

theorem resume_withdrawn (hcallback : call.callback? = none) (reply : PixReply) (s : PixState σ) :
    Withdrawn env s (resumePixCall env call reply s) call reply := by
  cases call with
  | burn => exact burn_withdrawn reply s
  | createTransaction => exact createTransaction_withdrawn reply s
  | auditCreated => exact auditCreated_withdrawn reply s
  | orderWithdrawal => exact orderWithdrawal_withdrawn reply s
  | setPixOrder t pixOrderId =>
    cases reply with
    | ok value => exact .ended _ _ (.inl rfl) rfl rfl rfl
    | threw executed message => cases executed <;> exact .ended _ _ (.inl rfl) rfl rfl rfl
    | submitted fate time txHash message => exact .waits _ _ rfl
  | _ => cases hcallback

def PixState.ordersAndBurns (s : PixState σ) : List WithdrawalOrder × List Burn := (s.withdrawalOrders, s.burns)

theorem execute_frame {callback : Callback} (hcallback : call.callback? = some callback) (value : String) :
    (call.execute env value s).ordersAndBurns = s.ordersAndBurns := by
  cases call with
  | recordEvent =>
    simp only [PixCall.execute]
    split <;> rfl
  | burn | createTransaction | auditCreated | orderWithdrawal | setPixOrder => cases hcallback
  | _ => rfl

theorem landed_frame (chain : σ) : (call.landed s chain).ordersAndBurns = s.ordersAndBurns := by
  cases call <;> rfl

theorem confirmed_frame {callback : Callback} (hcallback : call.callback? = some callback) (txHash : String) :
    (call.confirmed env txHash s).1.ordersAndBurns = s.ordersAndBurns := by
  cases call with
  | burn => cases hcallback
  | _ => rfl

/-- A callback changes neither the burns nor the orders. -/
theorem resume_frame {callback : Callback} (hcallback : call.callback? = some callback) :
    (resumePixCall env call reply s).1.ordersAndBurns = s.ordersAndBurns :=
  resume_keeps PixState.ordersAndBurns (fun _ _ => rfl) (execute_frame hcallback) (fun chain _ _ => landed_frame chain)
    (fun txHash _ => confirmed_frame hcallback txHash) reply

theorem withdraws_of_callback {callback : Callback} (hcallback : call.callback? = some callback) :
    call.withdraws = none := by
  cases call <;> first | rfl | cases hcallback

/-- The user of a burn is there. -/
def PixCall.HasUser (env : PixEnv σ) : PixCall → Prop
  | .burn userId _ _ => (env.users userId).isSome = true
  | _ => True

theorem hasUser_of_callback {callback : Callback} (h : call.callback? = some callback) : call.HasUser env := by
  cases call with
  | burn => cases h
  | _ => trivial

/-- A burn is where a withdrawal starts, and no step goes back there. -/
theorem resume_hasUser (hcall : call.HasUser env) (reply : PixReply) (s : PixState σ) :
    ∀ next ∈ (resumePixCall env call reply s).2, next.HasUser env := by
  intro next hnext
  cases hcallback : call.callback? with
  | some callback => exact hasUser_of_callback ((next_callback hnext).trans hcallback)
  | none =>
    have hstep : Withdrawn env s (resumePixCall env call reply s) call reply := resume_withdrawn hcallback reply s
    cases hstep with
    | waits _ _ hr =>
      rw [hr] at hnext
      exact Option.some.inj hnext ▸ hcall
    | ended _ _ _ _ _ hover =>
      rw [hover] at hnext
      cases hnext
    | burned userId dto tx _ _ _ _ _ _ hsome =>
      rw [hsome next hnext]
      trivial
    | created dto value _ hr | audited t dto value log hr =>
      rw [hr] at hnext
      cases hnext
      trivial
    | ordered t dto _ _ hnext' =>
      obtain ⟨pixOrderId, rfl⟩ := hnext' next hnext
      trivial

/-! ### The orders of the transactions -/

def PixState.ordersOf (id : String) (s : PixState σ) : Nat := (s.withdrawalOrders.map (·.request.externalId)).count id

/-- A call that is to order the withdrawal of a transaction. -/
def PixCall.orders (id : String) : PixCall → Nat
  | .auditCreated t _ | .orderWithdrawal t _ => if t.id = id then 1 else 0
  | _ => 0

def PixState.transactionRows (id : String) (s : PixState σ) : Nat := if (s.findTransaction id).isSome then 1 else 0

/-- A transaction has at most one order, or one call that is to order it. -/
def OrderedOnce (c : Config (PixState σ) PixCall) : Prop :=
  ∀ id, c.potential (PixState.ordersOf id) (PixCall.orders id) ≤ c.shared.transactionRows id

theorem orders_of_withdraws (h : call.withdraws = none) (id : String) : call.orders id = 0 := by
  cases call <;> first | rfl | cases h

theorem PixState.Grows.transactionRows {s' : PixState σ} (h : s.Grows s') (id : String) :
    s.transactionRows id ≤ s'.transactionRows id := by
  unfold PixState.transactionRows
  split
  · next hsome =>
    obtain ⟨t, ht⟩ := Option.isSome_iff_exists.mp hsome
    obtain ⟨t', ht', -⟩ := h.transaction id t ht
    rw [ht']
    exact Nat.le_refl 1
  · exact Nat.zero_le _

theorem ordersOf_orderWithdrawal (request : PixWithdrawal) (id : String) :
    (s.orderWithdrawal request).ordersOf id ≤ s.ordersOf id + if request.externalId = id then 1 else 0 := by
  unfold PixState.orderWithdrawal
  split
  · exact Nat.le_add_right _ _
  · unfold PixState.ordersOf
    rw [List.map_append, List.count_append, List.map_singleton, List.count_singleton]
    simp

theorem findTransaction_append {t : PixTransaction} (hnew : s.findTransaction t.id = none) :
    ({ s with transactions := s.transactions ++ [t] } : PixState σ).findTransaction t.id = some t := by
  unfold PixState.findTransaction Table.find at hnew ⊢
  rw [List.find?_append, hnew, Option.none_or, List.find?_singleton]
  simp

theorem ordersOf_congr {s' : PixState σ} (h : s'.withdrawalOrders = s.withdrawalOrders) (id : String) :
    s'.ordersOf id = s.ordersOf id := by
  unfold PixState.ordersOf
  rw [h]

theorem transactionRows_append {t : PixTransaction} (hnew : s.findTransaction t.id = none) (id : String) :
    s.transactionRows id + (if t.id = id then 1 else 0) ≤
      ({ s with transactions := s.transactions ++ [t] } : PixState σ).transactionRows id := by
  by_cases he : t.id = id
  · subst he
    unfold PixState.transactionRows
    rw [hnew, findTransaction_append hnew]
    simp
  · rw [if_neg he]
    exact (PixState.Grows.createTransaction s t).transactionRows id

theorem withdrawn_ordersOf {r : PixState σ × Option PixCall} (h : Withdrawn env s r call reply) (hgrows : s.Grows r.1)
    (id : String) :
    r.1.ordersOf id + weight (PixCall.orders id) r.2 + s.transactionRows id ≤
      s.ordersOf id + call.orders id + r.1.transactionRows id := by
  have hrows := hgrows.transactionRows id
  cases h with
  | waits _ _ hr =>
    subst hr
    exact Nat.le_refl _
  | ended _ _ _ horders _ hover =>
    rw [hover, ordersOf_congr horders]
    show s.ordersOf id + 0 + _ ≤ _
    omega
  | burned userId dto tx _ _ _ horders _ _ hsome =>
    have hweight : weight (PixCall.orders id) r.2 = 0 := weight_eq_zero fun next hnext => by
      rw [hsome next hnext]
      rfl
    rw [hweight, ordersOf_congr horders]
    omega
  | created dto value hfresh hr =>
    subst hr
    have happend := transactionRows_append (t := { toTransaction := withdrawalTransaction dto value }) hfresh id
    refine Nat.le_trans (Nat.le_of_eq ?_) (Nat.add_le_add_left happend (s.ordersOf id))
    show s.ordersOf id + (if value = id then 1 else 0) + s.transactionRows id =
      s.ordersOf id + (s.transactionRows id + if value = id then 1 else 0)
    omega
  | audited t dto value log hr =>
    subst hr
    exact Nat.le_refl _
  | ordered t dto _ hr hnext =>
    have hweight : weight (PixCall.orders id) r.2 = 0 := weight_eq_zero fun next hmem => by
      obtain ⟨pixOrderId, rfl⟩ := hnext next hmem
      rfl
    rw [hr] at hrows ⊢
    have hordered := ordersOf_orderWithdrawal (s := s) (pixWithdrawal env.users t.toTransaction dto) id
    change _ ≤ s.ordersOf id + (if t.id = id then 1 else 0) at hordered
    show _ + _ + _ ≤ s.ordersOf id + (if t.id = id then 1 else 0) + _
    rw [hweight]
    omega

theorem ordersAndBurns_eq {s' : PixState σ} (h : s'.ordersAndBurns = s.ordersAndBurns) :
    s'.withdrawalOrders = s.withdrawalOrders ∧ s'.burns = s.burns :=
  ⟨congrArg Prod.fst h, congrArg Prod.snd h⟩

theorem mem_orderWithdrawal {request : PixWithdrawal} (hnew : s.ordersOf request.externalId = 0) :
    (⟨request, .processing⟩ : WithdrawalOrder) ∈ (s.orderWithdrawal request).withdrawalOrders := by
  unfold PixState.orderWithdrawal
  split
  · next hany =>
    obtain ⟨order, horder, hid⟩ := List.any_eq_true.mp hany
    have hmem : request.externalId ∈ s.withdrawalOrders.map (·.request.externalId) :=
      List.mem_map.mpr ⟨order, horder, of_decide_eq_true hid⟩
    exact absurd hmem (List.count_eq_zero.mp hnew)
  · exact List.mem_concat_self

end Withdrawn

/-! Along a run -/

section Runs
variable {σ : Type} {env : PixEnv σ} {s : PixState σ} {c : Config (PixState σ) PixCall} {call : PixCall}

theorem OrderedOnce.free (hc : OrderedOnce c) (hcall : call ∈ c.calls) {t : PixTransaction}
    {dto : CreatePixWithdrawalDto} (h : call = .orderWithdrawal t dto) : c.shared.ordersOf t.id = 0 := by
  subst h
  have hle := hc t.id
  have hrows : c.shared.transactionRows t.id ≤ 1 := by
    unfold PixState.transactionRows
    split
    · exact Nat.le_refl 1
    · exact Nat.zero_le 1
  have hload : 1 ≤ c.load (PixCall.orders t.id) := by
    unfold Config.load
    refine List.single_le_sum (fun _ _ => Nat.zero_le _) _ (List.mem_map.mpr ⟨_, hcall, ?_⟩)
    exact if_pos rfl
  unfold Config.potential at hle
  omega

theorem orderedOnce_resume {reply : PixReply} {rest : List PixCall} (hc : OrderedOnce c)
    (hcalls : c.calls.Perm (call :: rest)) :
    OrderedOnce (.after rest (resumePixCall env call reply c.shared)) := by
  intro id
  have hgrows := resume_grows env call reply c.shared
  have hrows := hgrows.transactionRows id
  have hstep : (resumePixCall env call reply c.shared).1.ordersOf id +
        weight (PixCall.orders id) (resumePixCall env call reply c.shared).2 + c.shared.transactionRows id ≤
      c.shared.ordersOf id + call.orders id + (resumePixCall env call reply c.shared).1.transactionRows id := by
    cases hcallback : call.callback? with
    | none => exact withdrawn_ordersOf (resume_withdrawn hcallback reply c.shared) hgrows id
    | some callback =>
      have hweight : weight (PixCall.orders id) (resumePixCall env call reply c.shared).2 = 0 :=
        weight_eq_zero fun next hnext =>
          orders_of_withdraws (withdraws_of_callback ((next_callback hnext).trans hcallback)) id
      rw [hweight, ordersOf_congr (ordersAndBurns_eq (resume_frame hcallback)).1]
      omega
  have hpotential := potential_resume_le (d := PixState.ordersOf id) (w := PixCall.orders id)
    (r := resumePixCall env call reply c.shared)
    (n := (resumePixCall env call reply c.shared).1.transactionRows id - c.shared.transactionRows id) hcalls (by omega)
  have hold := hc id
  show _ ≤ (resumePixCall env call reply c.shared).1.transactionRows id
  omega

theorem start_ordersAndBurns (env : PixEnv σ) (request : PixRequest) (s : PixState σ) :
    (startPixCall env request s).1.burns = s.burns ∧
      (startPixCall env request s).1.withdrawalOrders.map (·.request.externalId) =
        s.withdrawalOrders.map (·.request.externalId) := by
  cases startPixCall_received env request s with
  | answered _ _ hr | recording _ hr | refused _ _ hr | burning _ _ _ _ hr =>
    rw [hr]
    exact ⟨rfl, rfl⟩
  | moved externalId status hr =>
    rw [hr]
    exact ⟨rfl, Table.map_key_modify fun _ h => h⟩

theorem orderedOnce_start (env : PixEnv σ) (hc : OrderedOnce c) (request : PixRequest) :
    OrderedOnce (.after c.calls (startPixCall env request c.shared)) := by
  intro id
  have hweight : weight (PixCall.orders id) (startPixCall env request c.shared).2 = 0 := by
    refine weight_eq_zero fun next hnext => ?_
    rcases start_next hnext with ⟨callback, -, rfl⟩ | ⟨userId, dto, tx, -, -, rfl⟩ <;> rfl
  have hordersOf : (startPixCall env request c.shared).1.ordersOf id = c.shared.ordersOf id := by
    unfold PixState.ordersOf
    rw [(start_ordersAndBurns env request c.shared).2]
  have hpotential := potential_start_le (d := PixState.ordersOf id) (w := PixCall.orders id) (c := c)
    (r := startPixCall env request c.shared) (n := 0) (by rw [hweight, hordersOf])
  exact (hpotential.trans (hc id)).trans ((start_grows env request c.shared).transactionRows id)

end Runs
end CredBridge.Api
