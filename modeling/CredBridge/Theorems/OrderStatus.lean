import CredBridge.PixService.Orders

/-! # The status machine of an order

Events of the provider and reconciliations change the status of an order through the check of the declared
transitions. A cancellation only asks whether the order is terminal, so it follows the machine exactly when
the order is a deposit: a withdrawal that is not terminal is processing or timed out, and may not be
canceled. -/

namespace CredBridge.PixService
open Result Machine

/-! ### What a call does to the orders -/

structure SameOrder (o o' : PixOrder) : Prop where
  id : o'.id = o.id
  type : o'.type = o.type

def Starts (o : PixOrder) : Prop :=
  o.type = .deposit ∧ o.status = .pendingPayment ∨ o.type = .withdrawal ∧ o.status = .processing

/-- The status that a call reports of an order. -/
def Call.reports (py : Python) (o : PixOrder) : Call → Option PixOrderStatus
  | .applyCorpxEvent pixOrderId eventType _ => if o.id = pixOrderId then corpxEventToStatus eventType else none
  | .reconcileOrder pixOrderId lookupQr lookupPayment =>
    if o.id = pixOrderId then
      match o.type with
      | .deposit => lookupQr.toOption.bind fun qr => (qrStatusToEvent (py.lower qr.status)).bind corpxEventToStatus
      | .withdrawal =>
        lookupPayment.toOption.bind fun payment => (paymentStatusToEvent (py.upper payment.status)).bind corpxEventToStatus
    else none
  | .createDeposit .. | .createWithdrawal .. | .cancelOrder .. => none

section Inversion
variable {py : Python} {settings : Settings} {fresh : Fresh} {db db' : Db} {call : Call} {o o' : PixOrder}
  {s : PixOrderStatus}

/-- The order with its new status, and with the columns that are written for it. -/
structure Applied (o o' : PixOrder) (s : PixOrderStatus) : Prop where
  same : SameOrder o o'
  status : o'.status = s
  allowed : isTransitionAllowed o.status s = true
  confirmedAt : if s = .confirmed then o'.confirmedAt ≠ none else o'.confirmedAt = o.confirmedAt
  failure : if s = .failed ∨ s = .timeout then o'.failedAt ≠ none ∧ o'.failureReason ≠ none
    else o'.failedAt = o.failedAt ∧ o'.failureReason = o.failureReason

theorem recordFailed_applied {eventType : String} {payload : Json} (hallowed : isTransitionAllowed o.status s = true)
    (hs : s = .failed ∨ s = .timeout) (h : recordFailed fresh { o with status := s } eventType payload = .ok o') :
    Applied o o' s := by
  obtain ⟨reason, -, h⟩ := bind_eq_ok.mp h
  cases pure_eq_ok.mp h
  refine ⟨⟨rfl, rfl⟩, rfl, hallowed, ?_, ?_⟩
  · rw [if_neg (by rintro rfl; simp at hs)]
  · rw [if_pos hs]
    exact ⟨Option.some_ne_none _, Option.some_ne_none _⟩

theorem recordOutcome_applied {eventType : String} {payload : Json} (hallowed : isTransitionAllowed o.status s = true)
    (h : recordOutcome py fresh { o with status := s } s eventType payload = .ok o') : Applied o o' s := by
  cases s with
  | confirmed =>
    obtain ⟨endToEndId, -, h⟩ := bind_eq_ok.mp h
    obtain ⟨_, -, h⟩ := bind_eq_ok.mp h
    cases pure_eq_ok.mp h
    exact ⟨⟨rfl, rfl⟩, rfl, hallowed, Option.some_ne_none _, rfl, rfl⟩
  | failed => exact recordFailed_applied hallowed (.inl rfl) h
  | timeout => exact recordFailed_applied hallowed (.inr rfl) h
  | created | pendingPayment | processing | expired | canceled | refunded =>
    cases pure_eq_ok.mp h
    exact ⟨⟨rfl, rfl⟩, rfl, hallowed, rfl, rfl, rfl⟩

theorem applyCorpxEvent_applied {eventType : String} {payload : Json}
    (h : applyCorpxEvent py fresh o eventType payload = .ok (o', some s)) :
    corpxEventToStatus eventType = some s ∧ Applied o o' s := by
  unfold applyCorpxEvent at h
  split at h
  · cases pure_eq_ok.mp h
  · next newStatus hstatus =>
    split at h
    · cases pure_eq_ok.mp h
    · next hallowed =>
      obtain ⟨order, hrecord, h⟩ := bind_eq_ok.mp h
      cases pure_eq_ok.mp h
      exact ⟨hstatus, recordOutcome_applied (Bool.not_eq_false _ ▸ hallowed) hrecord⟩

theorem applyCorpxEvent_ignored {eventType : String} {payload : Json}
    (h : applyCorpxEvent py fresh o eventType payload = .ok (o', none)) :
    o' = o ∧ ∀ s ∈ corpxEventToStatus eventType, isTransitionAllowed o.status s = false := by
  unfold applyCorpxEvent at h
  split at h
  · next hnone =>
    cases pure_eq_ok.mp h
    exact ⟨rfl, fun s hs => by rw [hnone] at hs; cases hs⟩
  · next newStatus hstatus =>
    split at h
    · next hrefused =>
      cases pure_eq_ok.mp h
      exact ⟨rfl, fun s hs => Option.some.inj (hstatus.symm.trans hs) ▸ hrefused⟩
    · obtain ⟨order, -, h⟩ := bind_eq_ok.mp h
      cases pure_eq_ok.mp h

theorem applyCorpxEvent_inv {eventType : String} {payload : Json} {newStatus : Option PixOrderStatus}
    (h : applyCorpxEvent py fresh o eventType payload = .ok (o', newStatus)) :
    o' = o ∧ newStatus = none ∨
      SameOrder o o' ∧ newStatus = some o'.status ∧ isTransitionAllowed o.status o'.status = true := by
  cases newStatus with
  | none => exact .inl ⟨(applyCorpxEvent_ignored h).1, rfl⟩
  | some s =>
    obtain ⟨-, happlied⟩ := applyCorpxEvent_applied h
    exact .inr ⟨happlied.same, by rw [happlied.status], by rw [happlied.status]; exact happlied.allowed⟩

end Inversion

/-- What a call that raised nothing wrote to the table of orders. -/
inductive OrdersWritten (py : Python) (db db' : Db) (call : Call) : Prop where
  | unchanged (h : db'.pixOrders = db.pixOrders)
      (hrefused : ∀ o ∈ db.pixOrders, ∀ s ∈ call.reports py o, isTransitionAllowed o.status s = false)
  | added (o : PixOrder) (hnew : findOrderById db o.id = none) (hstarts : Starts o)
      (hnothing : o.confirmedAt = none ∧ o.failedAt = none ∧ o.failureReason = none)
      (hreports : ∀ o, call.reports py o = none) (h : db'.pixOrders = db.pixOrders ++ [o])
  | applied (o o' : PixOrder) (s : PixOrderStatus) (hmem : o ∈ db.pixOrders) (happlied : Applied o o' s)
      (hreports : call.reports py o = some s) (hothers : ∀ x, x.id ≠ o.id → call.reports py x = none)
      (h : db'.pixOrders = Table.modify PixOrder.id o.id (fun _ => o') db.pixOrders)
  | canceled (o : PixOrder) (answer : Except PyError Unit) (hcall : call = .cancelOrder o.id answer)
      (hmem : o ∈ db.pixOrders) (hlive : isTerminal o.status = false)
      (h : db'.pixOrders = Table.modify PixOrder.id o.id (fun _ => { o with status := .canceled }) db.pixOrders)

/-- The same of the statuses alone. -/
inductive OrdersChange (db db' : Db) (call : Call) : Prop where
  | unchanged (h : db'.pixOrders = db.pixOrders)
  | added (o : PixOrder) (hnew : findOrderById db o.id = none) (hstarts : Starts o)
      (h : db'.pixOrders = db.pixOrders ++ [o])
  | moved (o o' : PixOrder) (hmem : o ∈ db.pixOrders) (hsame : SameOrder o o')
      (hstatus : o'.status = o.status ∨ isTransitionAllowed o.status o'.status = true)
      (h : db'.pixOrders = Table.modify PixOrder.id o.id (fun _ => o') db.pixOrders)
  | canceled (o o' : PixOrder) (answer : Except PyError Unit) (hcall : call = .cancelOrder o.id answer)
      (hmem : o ∈ db.pixOrders) (hlive : isTerminal o.status = false) (hsame : SameOrder o o')
      (hstatus : o'.status = .canceled)
      (h : db'.pixOrders = Table.modify PixOrder.id o.id (fun _ => o') db.pixOrders)

section Written
variable {py : Python} {settings : Settings} {fresh : Fresh} {db db' : Db} {call : Call} {o : PixOrder}

theorem cancelOrder_inv {pixOrderId : String} {answer : Except PyError Unit}
    (h : cancelOrder db pixOrderId answer = .ok db') :
    ∃ order, findOrderById db pixOrderId = some order ∧ isTerminal order.status = false ∧ db'.pixOrders =
      Table.modify PixOrder.id order.id (fun _ => { order with status := .canceled }) db.pixOrders := by
  obtain ⟨order, hfind, h⟩ := orThrow_bind_eq_ok.mp h
  obtain ⟨hlive, h⟩ := throwIf_bind_eq_ok.mp h
  have hwrite : ∃ db₁, db.updateOrder { order with status := .canceled } = .ok db₁ ∧
      db'.pixOrders = db₁.pixOrders := by
    split at h
    · obtain ⟨_, -, h⟩ := bind_eq_ok.mp h
      obtain ⟨db₁, hupdate, h⟩ := bind_eq_ok.mp h
      obtain ⟨-, rfl⟩ := Db.insertEvent_inv h
      exact ⟨db₁, hupdate, rfl⟩
    · obtain ⟨db₁, hupdate, h⟩ := bind_eq_ok.mp h
      obtain ⟨-, rfl⟩ := Db.insertEvent_inv h
      exact ⟨db₁, hupdate, rfl⟩
  obtain ⟨db₁, hupdate, horders⟩ := hwrite
  exact ⟨order, hfind, Bool.eq_false_iff.mpr hlive, horders.trans (congrArg Db.pixOrders (Db.updateOrder_inv hupdate))⟩

theorem persistOrder_written {eventType : String} {payload : Json} (hreports : ∀ o, call.reports py o = none)
    (h : persistOrder db o eventType payload = .ok db') (hstarts : Starts o)
    (hnothing : o.confirmedAt = none ∧ o.failedAt = none ∧ o.failureReason = none) :
    OrdersWritten py db db' call := by
  obtain ⟨hnew, _, -, rfl⟩ := persistOrder_inv h
  exact .added o hnew hstarts hnothing hreports rfl

theorem reports_other {pixOrderId : String} {qr : Except PyError QrCodeStatus} {payment : Except PyError PaymentStatus}
    (hid : o.id ≠ pixOrderId) : (Call.reconcileOrder pixOrderId qr payment).reports py o = none := if_neg hid

/-- A reconciliation of the order that reports nothing that the order takes. -/
theorem reconcileOrder_unchanged (hkeyed : Table.Keyed PixOrder.id db.pixOrders) (hmem : o ∈ db.pixOrders)
    {qr : Except PyError QrCodeStatus} {payment : Except PyError PaymentStatus} (h : pure db = Except.ok (ε := PyError) db')
    (hrefused : ∀ s ∈ (Call.reconcileOrder o.id qr payment).reports py o, isTransitionAllowed o.status s = false) :
    OrdersWritten py db db' (.reconcileOrder o.id qr payment) := by
  refine .unchanged (congrArg Db.pixOrders (pure_eq_ok.mp h).symm) fun x hx s hs => ?_
  by_cases hid : x.id = o.id
  · obtain rfl := hkeyed.eq_of_key hx hmem hid
    exact hrefused s hs
  · rw [reports_other hid] at hs
    cases hs

theorem reconcileWith_written (hkeyed : Table.Keyed PixOrder.id db.pixOrders) (hmem : o ∈ db.pixOrders)
    {qr : Except PyError QrCodeStatus} {payment : Except PyError PaymentStatus} {eventType : Option String} {payload : Json}
    (hreports : (Call.reconcileOrder o.id qr payment).reports py o = eventType.bind corpxEventToStatus)
    (h : reconcileWith py settings fresh db o eventType payload = .ok db') :
    OrdersWritten py db db' (.reconcileOrder o.id qr payment) := by
  cases eventType with
  | none =>
    refine reconcileOrder_unchanged hkeyed hmem h fun s hs => ?_
    rw [hreports] at hs
    cases hs
  | some eventType =>
    obtain ⟨⟨o', newStatus⟩, happly, h⟩ := bind_eq_ok.mp h
    cases newStatus with
    | none => exact reconcileOrder_unchanged hkeyed hmem h (hreports ▸ (applyCorpxEvent_ignored happly).2)
    | some s =>
      obtain ⟨hstatus, happlied⟩ := applyCorpxEvent_applied happly
      obtain ⟨db₁, hupdate, h⟩ := bind_eq_ok.mp h
      obtain ⟨-, rfl⟩ := Db.insertCallback_inv h
      have horders := congrArg Db.pixOrders (Db.updateOrder_inv hupdate)
      exact .applied o o' s hmem happlied (hreports.trans hstatus) (fun _ => reports_other)
        (happlied.same.id ▸ horders)

theorem reconcileOrder_written (hkeyed : Table.Keyed PixOrder.id db.pixOrders) {pixOrderId : String}
    {qr : Except PyError QrCodeStatus} {payment : Except PyError PaymentStatus}
    (h : reconcileOrder py settings fresh db pixOrderId qr payment = .ok db') :
    OrdersWritten py db db' (.reconcileOrder pixOrderId qr payment) := by
  obtain ⟨o, hfind, hrun⟩ := orThrow_bind_eq_ok.mp h
  clear h
  have hmem := Table.mem_of_find hfind
  obtain rfl : o.id = pixOrderId := Table.key_of_find hfind
  have hreports : (Call.reconcileOrder o.id qr payment).reports py o = _ := if_pos rfl
  split at hrun
  · next hterm => exact reconcileOrder_unchanged hkeyed hmem hrun fun s _ => isTerminal_iff.mp hterm s
  · split at hrun
    · next htype =>
      rw [htype] at hreports
      cases qr with
      | error e => exact reconcileOrder_unchanged hkeyed hmem hrun fun s hs => by rw [hreports] at hs; cases hs
      | ok qr => exact reconcileWith_written hkeyed hmem hreports hrun
    · next htype =>
      rw [htype] at hreports
      cases payment with
      | error e => exact reconcileOrder_unchanged hkeyed hmem hrun fun s hs => by rw [hreports] at hs; cases hs
      | ok payment => exact reconcileWith_written hkeyed hmem hreports hrun

theorem applyCall_written (hkeyed : Table.Keyed PixOrder.id db.pixOrders) {pixOrderId eventType : String} {payload : Json}
    (h : step py settings db (fresh, .applyCorpxEvent pixOrderId eventType payload) = .ok db') :
    OrdersWritten py db db' (.applyCorpxEvent pixOrderId eventType payload) := by
  obtain ⟨o, hfind, hrun⟩ := orThrow_bind_eq_ok.mp h
  clear h
  obtain ⟨⟨o', newStatus⟩, happly, hupdate⟩ := bind_eq_ok.mp hrun
  have hmem := Table.mem_of_find hfind
  obtain rfl : o.id = pixOrderId := Table.key_of_find hfind
  have horders := congrArg Db.pixOrders (Db.updateOrder_inv hupdate)
  have hothers : ∀ x : PixOrder, x.id ≠ o.id → (Call.applyCorpxEvent o.id eventType payload).reports py x = none :=
    fun _ hid => if_neg hid
  cases newStatus with
  | none =>
    obtain ⟨rfl, hrefused⟩ := applyCorpxEvent_ignored happly
    refine .unchanged (horders.trans (Table.modify_self hkeyed hmem)) fun x hx s hs => ?_
    by_cases hid : x.id = o'.id
    · obtain rfl := hkeyed.eq_of_key hx hmem hid
      exact hrefused s ((if_pos rfl : (Call.applyCorpxEvent x.id eventType payload).reports py x = _) ▸ hs)
    · rw [hothers x hid] at hs
      cases hs
  | some s =>
    obtain ⟨hstatus, happlied⟩ := applyCorpxEvent_applied happly
    exact .applied o o' s hmem happlied ((if_pos rfl).trans hstatus) hothers (happlied.same.id ▸ horders)

theorem step_written (hkeyed : Table.Keyed PixOrder.id db.pixOrders) (h : step py settings db (fresh, call) = .ok db') :
    OrdersWritten py db db' call := by
  cases call with
  | createDeposit request qr =>
    rcases createDeposit_inv h with rfl | ⟨_, _, h⟩
    · exact .unchanged rfl fun _ _ _ => nofun
    · exact persistOrder_written (fun _ => rfl) h (.inl ⟨rfl, rfl⟩) ⟨rfl, rfl, rfl⟩
  | createWithdrawal request dict out =>
    rcases createWithdrawal_inv h with rfl | ⟨_, _, h⟩
    · exact .unchanged rfl fun _ _ _ => nofun
    · exact persistOrder_written (fun _ => rfl) h (.inr ⟨rfl, rfl⟩) ⟨rfl, rfl, rfl⟩
  | cancelOrder pixOrderId answer =>
    obtain ⟨o, hfind, hlive, horders⟩ := cancelOrder_inv h
    obtain rfl : o.id = pixOrderId := Table.key_of_find hfind
    exact .canceled o answer rfl (Table.mem_of_find hfind) hlive horders
  | applyCorpxEvent pixOrderId eventType payload => exact applyCall_written hkeyed h
  | reconcileOrder pixOrderId qr payment => exact reconcileOrder_written hkeyed h

theorem OrdersWritten.change (h : OrdersWritten py db db' call) : OrdersChange db db' call := by
  cases h with
  | unchanged h _ => exact .unchanged h
  | added o hnew hstarts _ _ h => exact .added o hnew hstarts h
  | applied o o' s hmem happlied _ _ h =>
    exact .moved o o' hmem happlied.same (.inr (by rw [happlied.status]; exact happlied.allowed)) h
  | canceled o answer hcall hmem hlive h =>
    exact .canceled o { o with status := .canceled } answer hcall hmem hlive ⟨rfl, rfl⟩ rfl h

theorem step_change (hkeyed : Table.Keyed PixOrder.id db.pixOrders) (h : step py settings db (fresh, call) = .ok db') :
    OrdersChange db db' call :=
  (step_written hkeyed h).change

end Written

/-! ### The statuses that orders reach -/

/-- A deposit that is not terminal awaits its payment; a withdrawal that is not terminal is processing or has
    timed out. -/
def StatusOfType (o : PixOrder) : Prop :=
  isTerminal o.status = true ∨ o.type = .deposit ∧ o.status = .pendingPayment ∨
    o.type = .withdrawal ∧ (o.status = .processing ∨ o.status = .timeout)

structure Db.Sound (db : Db) : Prop where
  keyed : Table.Keyed PixOrder.id db.pixOrders
  statuses : ∀ o ∈ db.pixOrders, StatusOfType o

def FollowsTransitions (db db' : Db) : Prop :=
  ∀ o ∈ db.pixOrders, ∀ o' ∈ db'.pixOrders, o'.id = o.id →
    o'.status = o.status ∨ isTransitionAllowed o.status o'.status = true

def KeepsTerminal (db db' : Db) : Prop :=
  ∀ o ∈ db.pixOrders, isTerminal o.status = true → ∃ o' ∈ db'.pixOrders, o'.id = o.id ∧ o'.status = o.status

/-- An order that the call cancels, if it is not terminal, is a deposit. -/
def CancelsDeposits (db : Db) : Call → Prop
  | .cancelOrder pixOrderId _ =>
    ∀ o ∈ findOrderById db pixOrderId, isTerminal o.status = false → o.type = .deposit
  | _ => True

instance decidableCancelsDeposits (db : Db) : (call : Call) → Decidable (CancelsDeposits db call)
  | .cancelOrder pixOrderId _ =>
    inferInstanceAs (Decidable (∀ o ∈ findOrderById db pixOrderId, isTerminal o.status = false → o.type = .deposit))
  | .createDeposit .. => instDecidableTrue
  | .createWithdrawal .. => instDecidableTrue
  | .applyCorpxEvent .. => instDecidableTrue
  | .reconcileOrder .. => instDecidableTrue

instance (db db' : Db) : Decidable (FollowsTransitions db db') :=
  inferInstanceAs (Decidable (∀ o ∈ db.pixOrders, ∀ o' ∈ db'.pixOrders, o'.id = o.id →
    o'.status = o.status ∨ isTransitionAllowed o.status o'.status = true))

section Invariant
variable {db db' : Db} {call : Call} {o o' : PixOrder}

theorem StatusOfType.starts (h : Starts o) : StatusOfType o := by
  rcases h with h | ⟨ht, hs⟩
  · exact .inr (.inl h)
  · exact .inr (.inr ⟨ht, .inl hs⟩)

theorem isTerminal_of_pendingPayment {t : PixOrderStatus} (h : isTransitionAllowed .pendingPayment t = true) :
    isTerminal t = true := by
  cases t <;> revert h <;> decide

theorem isTerminal_of_timeout {t : PixOrderStatus} (h : isTransitionAllowed .timeout t = true) :
    isTerminal t = true := by
  cases t <;> revert h <;> decide

theorem isTerminal_or_timeout_of_processing {t : PixOrderStatus} (h : isTransitionAllowed .processing t = true) :
    isTerminal t = true ∨ t = .timeout := by
  cases t <;> revert h <;> decide

theorem StatusOfType.moved (h : StatusOfType o) (hsame : SameOrder o o')
    (hallowed : isTransitionAllowed o.status o'.status = true) : StatusOfType o' := by
  rcases h with hterm | ⟨-, hs⟩ | ⟨ht, hs | hs⟩
  · rw [isTerminal_iff.mp hterm] at hallowed
    cases hallowed
  · exact .inl (isTerminal_of_pendingPayment (hs ▸ hallowed))
  · rcases isTerminal_or_timeout_of_processing (hs ▸ hallowed) with hterm | htimeout
    · exact .inl hterm
    · exact .inr (.inr ⟨hsame.type.trans ht, .inr htimeout⟩)
  · exact .inl (isTerminal_of_timeout (hs ▸ hallowed))

theorem StatusOfType.cancelable (h : StatusOfType o) (hlive : isTerminal o.status = false) :
    isTransitionAllowed o.status .canceled = true ↔ o.type = .deposit := by
  rcases h with hterm | ⟨ht, hs⟩ | ⟨ht, hs | hs⟩
  · rw [hterm] at hlive
    cases hlive
  · rw [hs, ht]
    decide
  · rw [hs, ht]
    decide
  · rw [hs, ht]
    decide

theorem Db.Sound.modify (hS : db.Sound) (hid : o'.id = o.id) (hstatus : StatusOfType o')
    (h : db'.pixOrders = Table.modify PixOrder.id o.id (fun _ => o') db.pixOrders) : db'.Sound where
  keyed := by
    rw [h]
    exact hS.keyed.modify fun _ _ => hid
  statuses x hx := by
    rw [h] at hx
    obtain ⟨y, hy, rfl⟩ := Table.mem_modify.mp hx
    split
    · exact hstatus
    · exact hS.statuses y hy

theorem Db.Sound.change (hS : db.Sound) (h : OrdersChange db db' call) : db'.Sound := by
  cases h with
  | unchanged h => exact ⟨h ▸ hS.keyed, h ▸ hS.statuses⟩
  | added o hnew hstarts h =>
    refine ⟨?_, fun x hx => ?_⟩
    · rw [h]
      exact hS.keyed.append (Table.find_eq_none.mp hnew)
    · rw [h] at hx
      rcases List.mem_append.mp hx with hx | hx
      · exact hS.statuses x hx
      · rw [List.mem_singleton.mp hx]
        exact .starts hstarts
  | moved o o' hmem hsame hstatus h =>
    refine hS.modify hsame.id ?_ h
    rcases hstatus with heq | hallowed
    · have ho := hS.statuses o hmem
      unfold StatusOfType at ho ⊢
      rwa [heq, hsame.type]
    · exact (hS.statuses o hmem).moved hsame hallowed
  | canceled o o' answer hcall hmem hlive hsame hstatus h =>
    refine hS.modify hsame.id (.inl ?_) h
    rw [hstatus]
    rfl

theorem Db.Sound.status_modify {written new x x' : PixOrder} (hS : db.Sound) (hid : new.id = written.id)
    (hmem : written ∈ db.pixOrders)
    (h : db'.pixOrders = Table.modify PixOrder.id written.id (fun _ => new) db.pixOrders)
    (hx : x ∈ db.pixOrders) (hx' : x' ∈ db'.pixOrders) (hxid : x'.id = x.id) :
    x = written ∧ x' = new ∨ x' = x := by
  rw [h] at hx'
  obtain ⟨y, hy, rfl⟩ := Table.mem_modify.mp hx'
  by_cases hk : y.id = written.id
  · rw [if_pos hk] at hxid
    rw [if_pos hk]
    exact .inl ⟨hS.keyed.eq_of_key hx hmem (hxid.symm.trans hid), rfl⟩
  · rw [if_neg hk] at hxid
    rw [if_neg hk]
    exact .inr (hS.keyed.eq_of_key hy hx hxid)

theorem mem_written {written new : PixOrder} (hmem : written ∈ db.pixOrders)
    (h : db'.pixOrders = Table.modify PixOrder.id written.id (fun _ => new) db.pixOrders) : new ∈ db'.pixOrders := by
  rw [h]
  exact Table.mem_modify.mpr ⟨written, hmem, if_pos rfl⟩

theorem mem_of_change (h : OrdersChange db db' call) (ho : o ∈ db.pixOrders) : ∃ o' ∈ db'.pixOrders, o'.id = o.id := by
  have hwritten : ∀ written new : PixOrder, new.id = written.id →
      db'.pixOrders = Table.modify PixOrder.id written.id (fun _ => new) db.pixOrders →
      ∃ o' ∈ db'.pixOrders, o'.id = o.id := fun written new hid h => by
    have hkeys : db'.pixOrders.map PixOrder.id = db.pixOrders.map PixOrder.id := by
      rw [h]
      exact Table.map_key_modify fun _ _ => hid
    have hmem : o.id ∈ db'.pixOrders.map PixOrder.id := hkeys ▸ List.mem_map_of_mem ho
    exact List.mem_map.mp hmem
  cases h with
  | unchanged h => exact ⟨o, h ▸ ho, rfl⟩
  | added x _ _ h => exact ⟨o, h ▸ List.mem_append_left _ ho, rfl⟩
  | moved x x' _ hsame _ h => exact hwritten x x' hsame.id h
  | canceled x x' _ _ _ _ hsame _ h => exact hwritten x x' hsame.id h

theorem followsTransitions_refl (hS : db.Sound) : FollowsTransitions db db := fun _ ho _ ho' hid =>
  .inl (congrArg PixOrder.status (hS.keyed.eq_of_key ho' ho hid))

/-- Writing one order again follows the machine exactly if the new status of that order does. -/
theorem followsTransitions_modify {written new : PixOrder} (hS : db.Sound) (hid : new.id = written.id)
    (hmem : written ∈ db.pixOrders)
    (h : db'.pixOrders = Table.modify PixOrder.id written.id (fun _ => new) db.pixOrders) :
    FollowsTransitions db db' ↔ new.status = written.status ∨ isTransitionAllowed written.status new.status = true := by
  constructor
  · intro hfollows
    exact hfollows written hmem new (mem_written hmem h) hid
  · intro hnew x hx x' hx' hxid
    rcases hS.status_modify hid hmem h hx hx' hxid with ⟨rfl, rfl⟩ | rfl
    · exact hnew
    · exact .inl rfl

theorem FollowsTransitions.of_change (hS : db.Sound) (h : OrdersChange db db' call) (hcancels : CancelsDeposits db call) :
    FollowsTransitions db db' := by
  cases h with
  | unchanged h =>
    intro x hx x' hx' hid
    exact followsTransitions_refl hS x hx x' (h ▸ hx') hid
  | added new hnew _ h =>
    intro x hx x' hx' hid
    rw [h] at hx'
    rcases List.mem_append.mp hx' with hx' | hx'
    · exact followsTransitions_refl hS x hx x' hx' hid
    · rw [List.mem_singleton.mp hx'] at hid
      exact absurd (hid ▸ List.mem_map_of_mem hx) (Table.find_eq_none.mp hnew)
  | moved written new hmem hsame hstatus h => exact (followsTransitions_modify hS hsame.id hmem h).mpr hstatus
  | canceled written new answer hcall hmem hlive hsame hstatus h =>
    have hfind : findOrderById db written.id = some written := (Table.find_eq_some hS.keyed).mpr ⟨hmem, rfl⟩
    subst hcall
    have hdeposit := hcancels written hfind hlive
    have hallowed := ((hS.statuses written hmem).cancelable hlive).mpr hdeposit
    exact (followsTransitions_modify hS hsame.id hmem h).mpr (.inr (hstatus ▸ hallowed))

theorem FollowsTransitions.keepsTerminal (hfollows : FollowsTransitions db db')
    (hpresent : ∀ o ∈ db.pixOrders, ∃ o' ∈ db'.pixOrders, o'.id = o.id) : KeepsTerminal db db' := by
  intro o ho hterm
  obtain ⟨o', ho', hid⟩ := hpresent o ho
  rcases hfollows o ho o' ho' hid with hstatus | hallowed
  · exact ⟨o', ho', hid, hstatus⟩
  · rw [isTerminal_iff.mp hterm] at hallowed
    cases hallowed

theorem KeepsTerminal.refl : KeepsTerminal db db := fun o ho _ => ⟨o, ho, rfl, rfl⟩

theorem KeepsTerminal.trans {db'' : Db} (h : KeepsTerminal db db') (h' : KeepsTerminal db' db'') :
    KeepsTerminal db db'' := by
  intro o ho hterm
  obtain ⟨o', ho', hid, hstatus⟩ := h o ho hterm
  obtain ⟨o'', ho'', hid', hstatus'⟩ := h' o' ho' (hstatus ▸ hterm)
  exact ⟨o'', ho'', hid'.trans hid, hstatus'.trans hstatus⟩

end Invariant

/-! ### Runs -/

section Runs
variable (py : Python) (settings : Settings) {is : List (Fresh × Call)} {db db' : Db}

theorem Db.Sound.empty : Db.empty.Sound := ⟨.nil, List.forall_mem_nil _⟩

theorem Db.Sound.step (fresh : Fresh) (call : Call) (hS : db.Sound) (h : step py settings db (fresh, call) = .ok db') :
    db'.Sound :=
  hS.change (step_change hS.keyed h)

theorem followsTransitions_next {i : Fresh × Call} (hS : db.Sound) (hcancels : CancelsDeposits db i.2) :
    FollowsTransitions db (next (step py settings) db i) := by
  rcases next_cases (step py settings) db i with h | h
  · exact .of_change hS (step_change hS.keyed h) hcancels
  · rw [h]
    exact followsTransitions_refl hS

theorem keepsTerminal_next {i : Fresh × Call} (hS : db.Sound) (hcancels : CancelsDeposits db i.2) :
    KeepsTerminal db (next (step py settings) db i) := by
  rcases next_cases (step py settings) db i with h | h
  · have hfollows := FollowsTransitions.of_change hS (step_change hS.keyed h) hcancels
    exact hfollows.keepsTerminal fun o ho => mem_of_change (step_change hS.keyed h) ho
  · rw [h]
    exact .refl

/-- Every change of the status of an order is an allowed transition, and after every prefix of the run the terminal
    orders have the status that they still have at its end. -/
def FollowsStatusMachine (is : List (Fresh × Call)) : Prop :=
  Along (step py settings) (fun db i => FollowsTransitions db (next (step py settings) db i)) Db.empty is ∧
    ∀ js ks, is = js ++ ks → KeepsTerminal (run (step py settings) Db.empty js) (run (step py settings) Db.empty is)

/-- The orders follow the status machine in every run in which no live withdrawal is canceled. -/
theorem follows_status_machine
    (h : Along (step py settings) (fun db i => CancelsDeposits db i.2) Db.empty is) :
    FollowsStatusMachine py settings is := by
  have hstep : ∀ db i db', Db.Sound db → step py settings db i = .ok db' → db'.Sound :=
    fun _ i _ hS h => hS.step py settings i.1 i.2 h
  refine ⟨along_of_step hstep (fun _ _ hS hcancels => followsTransitions_next py settings hS hcancels) .empty h, ?_⟩
  rintro js ks rfl
  rw [run_append]
  have hsound : (run (step py settings) Db.empty js).Sound := run_of_step hstep .empty js
  have hkeeps := along_of_step (R := fun db i => KeepsTerminal db (next (step py settings) db i)) hstep
    (fun _ _ hS hcancels => keepsTerminal_next py settings hS hcancels) hsound (Along.append.mp h).2
  exact rel_run (fun _ => .refl) (fun _ _ _ => .trans) hkeeps

end Runs

section Examples

def twoOrders : List (Fresh × Call) :=
  [(⟨"d", "d", "1", 0, 0⟩, .createDeposit depositRequest (.ok ⟨"txid", "", "location"⟩)),
    (⟨"w", "w", "2", 0, 0⟩, .createWithdrawal withdrawalRequest (.ok ()) (.ok ⟨"payment", "CREATED"⟩))]

theorem follows_status_machine_two_orders :
    FollowsStatusMachine plainPython testSettings
      (twoOrders ++ [(⟨"", "", "3", 1, 1⟩, .cancelOrder "d" (.ok ())),
        (⟨"", "", "4", 2, 2⟩, .applyCorpxEvent "w" "pix.out.completed" (.object [])),
        (⟨"", "", "5", 3, 3⟩, .applyCorpxEvent "d" "qrcode.paid" (.object []))]) :=
  follows_status_machine plainPython testSettings (by decide +kernel)

/-- Canceling the withdrawal takes it from processing to canceled. -/
theorem canceled_withdrawal_breaks_machine :
    ¬FollowsStatusMachine plainPython testSettings
      (twoOrders ++ [(⟨"", "", "3", 1, 1⟩, .cancelOrder "w" (.ok ()))]) :=
  fun h => absurd h.1 (by decide +kernel)

end Examples
end CredBridge.PixService
