import CredBridge.Lib.Concurrent
import CredBridge.PixService.Orders

/-! # Status changes in flight

A webhook of the provider, a reconciliation and a cancellation each load an order, wait, and commit what they made of
the copy they loaded. Every request has its own session, which reads what is committed when its statement runs, takes
no lock, and writes with its commit only: the rows it adds, and the columns in which its copy differs from what it
loaded. -/

namespace CredBridge.PixService
open Concurrent Machine Result

structure CorpXWebhook where
  eventId : String
  eventType : String
  data : Json
  rawPayload : Json

/-- What a session adds and changes when it commits. -/
structure Change where
  loaded : PixOrder
  order : PixOrder
  event : Option PixEvent
  callback : Option OutboxCallback

/-- The columns by which an order is looked up, in this order. -/
inductive OrderKey where
  | identifier (value : Json)
  | txid (value : Json)
  | paymentId (value : Json)

inductive UpdateRequest where
  | webhook (fresh : Fresh) (webhook : CorpXWebhook)
  | reconcileOrder (fresh : Fresh) (pixOrderId : String)
  | cancelOrder (pixOrderId : String)

inductive UpdateWaiting where
  | findOrder (fresh : Fresh) (webhook : CorpXWebhook) (keys : List OrderKey)
  | lookupQr (fresh : Fresh) (order : PixOrder)
  | lookupPayment (fresh : Fresh) (order : PixOrder)
  | cancelQr (order : PixOrder)
  | commit (change : Change)

inductive UpdateAnswer where
  /-- Whether the statement reached the database. -/
  | database (reached : Bool)
  | lookupQr (result : Except PyError QrCodeStatus)
  | lookupPayment (result : Except PyError PaymentStatus)
  | cancelQr (result : Except PyError Unit)

/-! ### Commits -/

/-- A column is written if the copy differs from what was loaded. -/
def written {α : Type} [DecidableEq α] (loaded changed stored : α) : α := if changed = loaded then stored else changed

def PixOrder.written (loaded changed stored : PixOrder) : PixOrder :=
  { stored with
    status := PixService.written loaded.status changed.status stored.status
    endToEndId := PixService.written loaded.endToEndId changed.endToEndId stored.endToEndId
    confirmedAt := PixService.written loaded.confirmedAt changed.confirmedAt stored.confirmedAt
    failedAt := PixService.written loaded.failedAt changed.failedAt stored.failedAt
    failureReason := PixService.written loaded.failureReason changed.failureReason stored.failureReason }

def Db.writeOrder (db : Db) (loaded changed : PixOrder) : Except PyError Db := do
  let stored ← orThrow (findOrderById db loaded.id) .databaseError
  db.updateOrder (PixOrder.written loaded changed stored)

def Db.insertIf {α : Type} (db : Db) (insert : Db → α → Except PyError Db) : Option α → Except PyError Db
  | none => pure db
  | some row => insert db row

def Db.commit (db : Db) (change : Change) : Except PyError Db := do
  let db ← db.writeOrder change.loaded change.order
  let db ← db.insertIf Db.insertEvent change.event
  db.insertIf Db.insertCallback change.callback

section Commit
variable {db db' : Db} {change : Change}

theorem insertIf_event_inv {event : Option PixEvent} (h : db.insertIf Db.insertEvent event = .ok db') :
    (∀ e ∈ event, Table.find PixEvent.eventId e.eventId db.pixEvents = none) ∧
      db' = { db with pixEvents := db.pixEvents ++ event.toList } := by
  cases event with
  | none =>
    cases pure_eq_ok.mp h
    exact ⟨nofun, by simp⟩
  | some e =>
    obtain ⟨hnew, rfl⟩ := Db.insertEvent_inv h
    exact ⟨fun _ he => Option.mem_some.mp he ▸ hnew, rfl⟩

theorem insertIf_event {event : Option PixEvent}
    (h : ∀ e ∈ event, Table.find PixEvent.eventId e.eventId db.pixEvents = none ∧
      (findOrderById db e.pixOrderId).isNone = false ∧ e.storable = true) :
    db.insertIf Db.insertEvent event = .ok { db with pixEvents := db.pixEvents ++ event.toList } := by
  cases event with
  | none => simp [Db.insertIf, pure, Except.pure]
  | some e =>
    obtain ⟨hnew, horder, hfits⟩ := h e rfl
    simp [Db.insertIf, Db.insertEvent, throwIf, hnew, horder, hfits, bind, Except.bind, pure, Except.pure]

theorem insertIf_callback {callback : Option OutboxCallback}
    (h : ∀ c ∈ callback, Table.find OutboxCallback.eventId c.eventId db.outboxCallbacks = none) :
    db.insertIf Db.insertCallback callback = .ok { db with outboxCallbacks := db.outboxCallbacks ++ callback.toList } := by
  cases callback with
  | none => simp [Db.insertIf, pure, Except.pure]
  | some c => simp [Db.insertIf, Db.insertCallback, throwIf, h c rfl, bind, Except.bind, pure, Except.pure]

theorem insertIf_callback_inv {callback : Option OutboxCallback}
    (h : db.insertIf Db.insertCallback callback = .ok db') :
    (∀ c ∈ callback, Table.find OutboxCallback.eventId c.eventId db.outboxCallbacks = none) ∧
      db' = { db with outboxCallbacks := db.outboxCallbacks ++ callback.toList } := by
  cases callback with
  | none =>
    cases pure_eq_ok.mp h
    exact ⟨nofun, by simp⟩
  | some c =>
    obtain ⟨hnew, rfl⟩ := Db.insertCallback_inv h
    exact ⟨fun _ hc => Option.mem_some.mp hc ▸ hnew, rfl⟩

/-- What a commit writes: the columns of its order, and its new event and callback. -/
theorem Db.commit_inv (h : db.commit change = .ok db') :
    ∃ stored, findOrderById db change.loaded.id = some stored ∧
      (∀ e ∈ change.event, Table.find PixEvent.eventId e.eventId db.pixEvents = none) ∧
      (∀ c ∈ change.callback, Table.find OutboxCallback.eventId c.eventId db.outboxCallbacks = none) ∧
      db' = ⟨Table.modify PixOrder.id stored.id (fun _ => PixOrder.written change.loaded change.order stored)
        db.pixOrders, db.pixEvents ++ change.event.toList, db.outboxCallbacks ++ change.callback.toList⟩ := by
  obtain ⟨db₁, hwrite, h⟩ := bind_eq_ok.mp h
  obtain ⟨db₂, hinsert, h⟩ := bind_eq_ok.mp h
  obtain ⟨stored, hfind, hupdate⟩ := orThrow_bind_eq_ok.mp hwrite
  obtain rfl := Db.updateOrder_inv hupdate
  obtain ⟨hevent, rfl⟩ := insertIf_event_inv hinsert
  obtain ⟨hcallback, rfl⟩ := insertIf_callback_inv h
  exact ⟨stored, hfind, hevent, hcallback, rfl⟩

end Commit

/-! ### The handlers -/

section Handler
variable (py : Python) (settings : Settings)

def callbackOf (fresh : Fresh) (order : PixOrder) : OutboxCallback where
  eventId := fresh.callbackEventId
  pixOrderId := some order.id
  targetUrl := settings.credbridgeApiUrl ++ settings.credbridgePixWebhookPath
  payloadJson := buildCallbackPayload order fresh.callbackEventId
  status := .pending
  attemptCount := 0
  nextAttemptAt := some fresh.now
  lastError := none
  createdAt := fresh.transactionStart

/-- `data.get("qrCode", {}).get(name)`: what is there and is no object has no `get`. -/
def qrField (data : Json) (name : String) : Except PyError (Option Json) :=
  match data.field? "qrCode" with
  | none => pure none
  | some (.object fields) => pure ((Json.object fields).field? name)
  | some _ => .error .other

/-- `first or other`, where the other one is looked at only if there is no first. -/
def orElse (first : Option Json) (other : Except PyError (Option Json)) : Except PyError (Option Json) :=
  match first.filter Json.truthy with
  | some value => pure (some value)
  | none => other

def orderKeys (webhook : CorpXWebhook) : Except PyError (List OrderKey) := do
  let nested ← orElse (webhook.data.field? "identifier") (qrField webhook.data "identifier")
  let identifier ← orElse nested (pure (webhook.rawPayload.field? "identifier"))
  let txid ← orElse (webhook.data.field? "txid") (qrField webhook.data "txid")
  let paymentId := webhook.data.field? "paymentId"
  pure (((identifier.filter Json.truthy).map OrderKey.identifier).toList ++
    ((txid.filter Json.truthy).map OrderKey.txid).toList ++
    ((paymentId.filter Json.truthy).map OrderKey.paymentId).toList)

/-- `scalar_one_or_none`. -/
def oneOrNone (rows : List PixOrder) : Except PyError (Option PixOrder) :=
  match rows with
  | [] => pure none
  | [order] => pure (some order)
  | _ => .error .other

def findOrderByKey (db : Db) : OrderKey → Except PyError (Option PixOrder)
  | .identifier value => do oneOrNone (db.pixOrders.filter (·.identifier = (← columnText value)))
  | .txid value => do oneOrNone (db.pixOrders.filter (·.corpxTxid = some (← columnText value)))
  | .paymentId value => do oneOrNone (db.pixOrders.filter (·.corpxPaymentId = some (← columnText value)))

/-- The first order that a key finds. -/
def findOrderForEvent (db : Db) : List OrderKey → Except PyError (Option PixOrder)
  | [] => pure none
  | key :: keys => do
    match ← findOrderByKey db key with
    | some order => pure (some order)
    | none => findOrderForEvent db keys

/-- The new statuses that the webhook handler enqueues a callback for. -/
def callbackStatuses : List PixOrderStatus := [.confirmed, .failed, .expired, .canceled, .timeout, .refunded]

def webhookChange (fresh : Fresh) (webhook : CorpXWebhook) (order : PixOrder) : Except PyError Change := do
  let event : PixEvent :=
    { eventId := webhook.eventId, pixOrderId := order.id, source := "corpx_webhook", eventType := webhook.eventType,
      payloadJson := some webhook.rawPayload }
  let (changed, newStatus) ← applyCorpxEvent py fresh order webhook.eventType webhook.data
  pure
    { loaded := order
      order := changed
      event := some event
      callback := (newStatus.filter (· ∈ callbackStatuses)).map fun _ => callbackOf settings fresh changed }

/-- A webhook that nothing interrupts, from its lookup by event id to its commit. -/
def processWebhookEvent (fresh : Fresh) (db : Db) (webhook : CorpXWebhook) : Except PyError Db := do
  match ← eventAlreadyProcessed db webhook.eventId with
  | true => pure db
  | false => do
    let keys ← orderKeys webhook
    match ← findOrderForEvent db keys with
    | none => pure db
    | some order => do
      let change ← webhookChange py settings fresh webhook order
      db.commit change

/-- What the reconciliation commits, if it found an event that the order takes. -/
def reconcileChange (fresh : Fresh) (order : PixOrder) (eventType : Option String) (payload : Json) :
    Except PyError (Option Change) :=
  match eventType with
  | none => pure none
  | some eventType => do
    let (changed, newStatus) ← applyCorpxEvent py fresh order eventType payload
    pure (newStatus.map fun _ =>
      { loaded := order, order := changed, event := none, callback := some (callbackOf settings fresh changed) })

def depositChange (fresh : Fresh) (order : PixOrder) (result : Except PyError QrCodeStatus) :
    Except PyError (Option Change) :=
  match result with
  | .error _ => pure none
  | .ok qrStatus =>
    reconcileChange py settings fresh order (qrStatusToEvent (py.lower qrStatus.status))
      (.object [("endToEndId", optional qrStatus.endToEndId), ("paidAmount", optionalNumber qrStatus.paidAmount),
        ("transactionId", optional qrStatus.transactionId), ("source", .string "reconciliation_lookup")])

def withdrawalChange (fresh : Fresh) (order : PixOrder) (result : Except PyError PaymentStatus) :
    Except PyError (Option Change) :=
  match result with
  | .error _ => pure none
  | .ok paymentStatus =>
    reconcileChange py settings fresh order (paymentStatusToEvent (py.upper paymentStatus.status))
      (.object [("endToEndId", optional paymentStatus.endToEndId), ("amount", optionalNumber paymentStatus.amount),
        ("source", .string "reconciliation_lookup")])

def cancelChange (order : PixOrder) : Change where
  loaded := order
  order := { order with status := .canceled }
  event := some
    { eventId := "internal-cancel-" ++ order.id, pixOrderId := order.id, source := "internal",
      eventType := "order.canceled", payloadJson := some (.object [("canceled_by", .string "credbridge_api")]) }
  callback := none

def waitToCommit (change : Except PyError (Option Change)) : Option UpdateWaiting :=
  match change with
  | .ok (some change) => some (.commit change)
  | _ => none

theorem mem_waitToCommit {result : Except PyError (Option Change)} {waiting : UpdateWaiting} :
    waiting ∈ waitToCommit result ↔ ∃ change, result = .ok (some change) ∧ waiting = .commit change := by
  rcases result with e | _ | change
  · simp [waitToCommit]
  · simp [waitToCommit]
  · simp [waitToCommit, eq_comm]

theorem waitToCommit_of {P : UpdateWaiting → Prop} {result : Except PyError (Option Change)}
    (h : ∀ change, result = .ok (some change) → P (.commit change)) : ∀ waiting ∈ waitToCommit result, P waiting := by
  intro waiting hwaiting
  obtain ⟨change, hchange, rfl⟩ := mem_waitToCommit.mp hwaiting
  exact h change hchange

def startUpdate (request : UpdateRequest) (db : Db) : Db × Option UpdateWaiting :=
  match request with
  | .webhook fresh webhook =>
    match eventAlreadyProcessed db webhook.eventId, orderKeys webhook with
    | .ok false, .ok keys => (db, some (.findOrder fresh webhook keys))
    | _, _ => (db, none)
  | .reconcileOrder fresh pixOrderId =>
    match (findOrderById db pixOrderId).filter fun order => !isTerminal order.status with
    | none => (db, none)
    | some order =>
      match order.type with
      | .deposit => (db, some (.lookupQr fresh order))
      | .withdrawal => (db, some (.lookupPayment fresh order))
  | .cancelOrder pixOrderId =>
    match (findOrderById db pixOrderId).filter fun order => !isTerminal order.status with
    | none => (db, none)
    | some order => (db, some (if order.type = .deposit then .cancelQr order else .commit (cancelChange order)))

/-- The next lookup of a webhook. An event of no order is one of a collection, or is only logged. -/
def afterFindOrder (fresh : Fresh) (webhook : CorpXWebhook) (keys : List OrderKey) (db : Db) : Option UpdateWaiting :=
  match keys with
  | [] => none
  | key :: keys =>
    match findOrderByKey db key with
    | .error _ => none
    | .ok none => some (.findOrder fresh webhook keys)
    | .ok (some order) => waitToCommit (some <$> webhookChange py settings fresh webhook order)

def resumeUpdate (waiting : UpdateWaiting) (answer : UpdateAnswer) (db : Db) : Db × Option UpdateWaiting :=
  match waiting, answer with
  | .findOrder fresh webhook keys, .database reached =>
    (db, if reached then afterFindOrder py settings fresh webhook keys db else none)
  | .lookupQr fresh order, .lookupQr result => (db, waitToCommit (depositChange py settings fresh order result))
  | .lookupPayment fresh order, .lookupPayment result =>
    (db, waitToCommit (withdrawalChange py settings fresh order result))
  | .cancelQr order, .cancelQr result => (db, waitToCommit (result.map fun _ => some (cancelChange order)))
  | .commit change, .database reached => (if reached then (db.commit change).toOption.getD db else db, none)
  | _, _ => (db, some waiting)

def orderUpdates : Handler Db UpdateWaiting UpdateRequest UpdateAnswer where
  start := startUpdate
  resume := resumeUpdate py settings

end Handler

/-! ### What is committed -/

/-- What a session commits: what it made of an event of the provider, or the cancellation of an order that it found not
    terminal. -/
inductive Commits (py : Python) (settings : Settings) (change : Change) : Prop where
  | webhook (fresh : Fresh) (event : CorpXWebhook) (order : PixOrder)
      (h : webhookChange py settings fresh event order = .ok change)
  | reconciliation (fresh : Fresh) (order : PixOrder) (eventType : Option String) (payload : Json)
      (h : reconcileChange py settings fresh order eventType payload = .ok (some change))
  | cancellation (order : PixOrder) (hlive : isTerminal order.status = false) (h : change = cancelChange order)

def UpdateWaiting.Commits (py : Python) (settings : Settings) : UpdateWaiting → Prop
  | .commit change => PixService.Commits py settings change
  | .cancelQr order => isTerminal order.status = false
  | .findOrder .. | .lookupQr .. | .lookupPayment .. => True

section Commits
variable {py : Python} {settings : Settings}

theorem startUpdate_commits (request : UpdateRequest) (db : Db) :
    (startUpdate request db).1 = db ∧ ∀ waiting ∈ (startUpdate request db).2, waiting.Commits py settings := by
  cases request with
  | webhook fresh webhook =>
    simp only [startUpdate]
    split
    · exact ⟨rfl, fun _ h => by cases h; trivial⟩
    · exact ⟨rfl, fun _ h => absurd h (Option.not_mem_none _)⟩
  | reconcileOrder fresh pixOrderId =>
    simp only [startUpdate]
    split
    · exact ⟨rfl, fun _ h => absurd h (Option.not_mem_none _)⟩
    · split <;> exact ⟨rfl, fun _ h => by cases h; trivial⟩
  | cancelOrder pixOrderId =>
    simp only [startUpdate]
    split
    · exact ⟨rfl, fun _ h => absurd h (Option.not_mem_none _)⟩
    · next order hfind =>
      have hlive : isTerminal order.status = false := by
        obtain ⟨-, h⟩ := Option.filter_eq_some_iff.mp hfind
        simpa using h
      refine ⟨rfl, fun _ h => ?_⟩
      cases h
      split
      · exact hlive
      · exact .cancellation order hlive rfl

/-- What a call waits for after an answer: what it waited for, its next lookup, or the commit of what it made of its
    order. -/
inductive UpdateNext (py : Python) (settings : Settings) (db : Db) : UpdateWaiting → UpdateWaiting → Prop where
  | waits (waiting : UpdateWaiting) : UpdateNext py settings db waiting waiting
  | searches (fresh : Fresh) (event : CorpXWebhook) (key : OrderKey) (keys : List OrderKey) :
      UpdateNext py settings db (.findOrder fresh event (key :: keys)) (.findOrder fresh event keys)
  | found (fresh : Fresh) (event : CorpXWebhook) (key : OrderKey) (keys : List OrderKey) (order : PixOrder)
      (change : Change) (hfind : findOrderByKey db key = .ok (some order))
      (h : webhookChange py settings fresh event order = .ok change) :
      UpdateNext py settings db (.findOrder fresh event (key :: keys)) (.commit change)
  | deposit (fresh : Fresh) (order : PixOrder) (eventType : Option String) (payload : Json) (change : Change)
      (h : reconcileChange py settings fresh order eventType payload = .ok (some change)) :
      UpdateNext py settings db (.lookupQr fresh order) (.commit change)
  | withdrawal (fresh : Fresh) (order : PixOrder) (eventType : Option String) (payload : Json) (change : Change)
      (h : reconcileChange py settings fresh order eventType payload = .ok (some change)) :
      UpdateNext py settings db (.lookupPayment fresh order) (.commit change)
  | cancels (order : PixOrder) : UpdateNext py settings db (.cancelQr order) (.commit (cancelChange order))

theorem afterFindOrder_next {fresh : Fresh} {event : CorpXWebhook} {keys : List OrderKey} {db : Db} :
    ∀ next ∈ afterFindOrder py settings fresh event keys db,
      UpdateNext py settings db (.findOrder fresh event keys) next := by
  intro next hnext
  cases keys with
  | nil => cases hnext
  | cons key keys =>
    simp only [afterFindOrder] at hnext
    split at hnext
    · cases hnext
    · cases hnext
      exact .searches fresh event key keys
    · next order hfind =>
      refine waitToCommit_of (fun change hchange => ?_) next hnext
      obtain ⟨_, hwebhook, hsome⟩ := map_eq_ok.mp hchange
      cases hsome
      exact .found fresh event key keys order change hfind hwebhook

theorem resumeUpdate_next {waiting : UpdateWaiting} {answer : UpdateAnswer} {db : Db} :
    ∀ next ∈ (resumeUpdate py settings waiting answer db).2, UpdateNext py settings db waiting next := by
  unfold resumeUpdate
  split
  · next fresh event keys reached =>
    cases reached with
    | false => exact fun _ h => absurd h (Option.not_mem_none _)
    | true => exact afterFindOrder_next
  · next fresh order result =>
    refine waitToCommit_of fun change h => ?_
    rcases result with e | qrStatus
    · cases h
    · exact .deposit fresh order _ _ change h
  · next fresh order result =>
    refine waitToCommit_of fun change h => ?_
    rcases result with e | paymentStatus
    · cases h
    · exact .withdrawal fresh order _ _ change h
  · next order result =>
    refine waitToCommit_of fun change h => ?_
    rcases result with e | u
    · cases h
    · cases h
      exact .cancels order
  · exact fun _ h => absurd h (Option.not_mem_none _)
  · intro next h
    cases h
    exact .waits _

theorem resumeUpdate_commits {waiting : UpdateWaiting} (hcommits : waiting.Commits py settings) (answer : UpdateAnswer)
    (db : Db) : ∀ next ∈ (resumeUpdate py settings waiting answer db).2, next.Commits py settings := by
  intro next hnext
  cases resumeUpdate_next next hnext with
  | waits => exact hcommits
  | searches => trivial
  | found fresh event key keys order change hfind h => exact .webhook fresh event order h
  | deposit fresh order eventType payload change h => exact .reconciliation fresh order eventType payload h
  | withdrawal fresh order eventType payload change h => exact .reconciliation fresh order eventType payload h
  | cancels order => exact .cancellation order hcommits rfl

end Commits

/-! ### Calls alone

A call that no other one interrupts does what the orders service does in one step. -/

section Alone
variable {py : Python} {settings : Settings} {fresh : Fresh} {db : Db} {order changed : PixOrder}

@[simp] theorem written_loaded {α : Type} [DecidableEq α] (loaded changed : α) :
    written loaded changed loaded = changed := by
  unfold written
  split
  · next h => exact h.symm
  · rfl

/-- An event changes no column that a commit would not write. -/
theorem recordOutcome_written {newStatus : PixOrderStatus} {eventType : String} {payload : Json}
    (h : recordOutcome py fresh { order with status := newStatus } newStatus eventType payload = .ok changed) :
    PixOrder.written order changed order = changed := by
  cases newStatus with
  | confirmed =>
    obtain ⟨endToEndId, -, h⟩ := bind_eq_ok.mp h
    obtain ⟨_, -, h⟩ := bind_eq_ok.mp h
    cases pure_eq_ok.mp h
    simp [PixOrder.written]
  | failed | timeout =>
    obtain ⟨failureReason, -, h⟩ := bind_eq_ok.mp h
    cases pure_eq_ok.mp h
    simp [PixOrder.written]
  | created | pendingPayment | processing | expired | canceled | refunded =>
    cases pure_eq_ok.mp h
    simp [PixOrder.written]

theorem applyCorpxEvent_written {eventType : String} {payload : Json} {newStatus : Option PixOrderStatus}
    (h : applyCorpxEvent py fresh order eventType payload = .ok (changed, newStatus)) :
    PixOrder.written order changed order = changed := by
  unfold applyCorpxEvent at h
  split at h
  · cases pure_eq_ok.mp h
    simp [PixOrder.written]
  · split at h
    · cases pure_eq_ok.mp h
      simp [PixOrder.written]
    · obtain ⟨order₁, hrecord, h⟩ := bind_eq_ok.mp h
      cases pure_eq_ok.mp h
      exact recordOutcome_written hrecord

/-- Committed on the order it was made of, a change is written as it is. -/
theorem commit_loaded {change : Change} (hfind : findOrderById db change.loaded.id = some change.loaded)
    (hwritten : PixOrder.written change.loaded change.order change.loaded = change.order) :
    db.commit change = (do
      let db ← db.updateOrder change.order
      let db ← db.insertIf Db.insertEvent change.event
      db.insertIf Db.insertCallback change.callback) := by
  have hwrite : db.writeOrder change.loaded change.order = db.updateOrder change.order := by
    show orThrow (findOrderById db change.loaded.id) PyError.databaseError >>= _ = _
    rw [hfind]
    exact congrArg db.updateOrder hwritten
  unfold Db.commit
  rw [hwrite]

/-- A change of an order as it is in the table, whose new rows have new keys. -/
structure Change.Lands (db : Db) (change : Change) : Prop where
  find : findOrderById db change.loaded.id = some change.loaded
  id : change.order.id = change.loaded.id
  written : PixOrder.written change.loaded change.order change.loaded = change.order
  event : ∀ e ∈ change.event, Table.find PixEvent.eventId e.eventId db.pixEvents = none ∧ e.pixOrderId = change.loaded.id
  callback : ∀ c ∈ change.callback, Table.find OutboxCallback.eventId c.eventId db.outboxCallbacks = none

theorem commit_event_storable {change : Change} {db' : Db} (h : db.commit change = .ok db') :
    ∀ e ∈ change.event, e.storable = true := by
  intro e he
  obtain ⟨_, -, h⟩ := bind_eq_ok.mp h
  obtain ⟨_, hinsert, -⟩ := bind_eq_ok.mp h
  rw [he] at hinsert
  obtain ⟨-, hinsert⟩ := throwIf_bind_eq_ok.mp hinsert
  obtain ⟨-, hinsert⟩ := throwIf_bind_eq_ok.mp hinsert
  obtain ⟨hfits, -⟩ := throwIf_bind_eq_ok.mp hinsert
  exact Bool.not_eq_false _ ▸ hfits

/-- Such a change is committed exactly if its order and its event fit in their columns. -/
theorem Change.Lands.commit_iff {change : Change} (h : change.Lands db) :
    (∃ db', db.commit change = .ok db') ↔
      change.order.storable = true ∧ ∀ e ∈ change.event, e.storable = true := by
  have hstored : findOrderById
      { db with pixOrders := Table.modify PixOrder.id change.order.id (fun _ => change.order) db.pixOrders }
        change.loaded.id = some change.order :=
    findOrderById_modify h.find h.id (by rw [h.id])
  constructor
  · rintro ⟨db', hdb'⟩
    refine ⟨?_, commit_event_storable hdb'⟩
    rw [commit_loaded h.find h.written] at hdb'
    obtain ⟨db₁, hupdate, -⟩ := bind_eq_ok.mp hdb'
    exact updateOrder_storable hupdate
  · rintro ⟨hstorable, hevent⟩
    rw [commit_loaded h.find h.written]
    obtain ⟨db₁, hupdate⟩ : ∃ db₁, db.updateOrder change.order = .ok db₁ :=
      ⟨_, throwIf_bind_eq_ok.mpr ⟨Bool.not_eq_false _ ▸ hstorable, rfl⟩⟩
    obtain rfl := Db.updateOrder_inv hupdate
    refine ⟨_, bind_eq_ok.mpr ⟨_, hupdate, bind_eq_ok.mpr ⟨_, insertIf_event fun e he => ?_, insertIf_callback h.callback⟩⟩⟩
    obtain ⟨hnew, horder⟩ := h.event e he
    exact ⟨hnew, by rw [horder, hstored]; rfl, hevent e he⟩

theorem commit_cancelChange (hfind : findOrderById db order.id = some order) :
    db.commit (cancelChange order) = (do
      let db ← db.updateOrder (cancelChange order).order
      db.insertIf Db.insertEvent (cancelChange order).event) := by
  rw [commit_loaded hfind (by simp [PixOrder.written, cancelChange])]
  exact congrArg _ (funext fun db => bind_pure _)

theorem cancelOrder_live (hfind : findOrderById db order.id = some order) (hlive : isTerminal order.status = false)
    (cancelQr : Except PyError Unit) :
    cancelOrder db order.id cancelQr =
      (if order.type = .deposit then cancelQr else pure ()) >>= fun _ => db.commit (cancelChange order) := by
  have hcommit := commit_cancelChange hfind
  unfold cancelOrder
  simp only [hfind, orThrow, throwIf, hlive, Bool.false_eq_true, ↓reduceIte, bind, Except.bind] at hcommit ⊢
  rw [hcommit]
  split <;> rfl

theorem filter_live (order : PixOrder) :
    (some order).filter (fun order => !isTerminal order.status) =
      if isTerminal order.status then none else some order := by
  cases h : isTerminal order.status <;> simp [Option.filter, h]

theorem cancelOrder_alone (pixOrderId : String) (cancelQr : Except PyError Unit) :
    (orderUpdates py settings).finish (startUpdate (.cancelOrder pixOrderId) db) [.cancelQr cancelQr, .database true] =
      (cancelOrder db pixOrderId cancelQr).toOption.getD db := by
  cases hfind : findOrderById db pixOrderId with
  | none =>
    simp only [startUpdate, cancelOrder, hfind]
    rfl
  | some order =>
    obtain rfl : order.id = pixOrderId := Table.key_of_find hfind
    cases hterm : isTerminal order.status with
    | true =>
      simp only [startUpdate, cancelOrder, hfind, filter_live, hterm, orThrow, throwIf, ↓reduceIte, bind, Except.bind]
      rfl
    | false =>
      rw [cancelOrder_live hfind hterm]
      simp only [startUpdate, hfind, filter_live, hterm, Bool.false_eq_true, ↓reduceIte]
      by_cases htype : order.type = .deposit
      · rw [if_pos htype, if_pos htype]
        cases cancelQr with
        | error e => rfl
        | ok u => rfl
      · rw [if_neg htype, if_neg htype]
        rfl

theorem finish_reconcile {eventType : Option String} {payload : Json}
    (hfind : findOrderById db order.id = some order) :
    (orderUpdates py settings).finish
        (db, waitToCommit (reconcileChange py settings fresh order eventType payload)) [.database true] =
      (reconcileWith py settings fresh db order eventType payload).toOption.getD db := by
  cases eventType with
  | none => rfl
  | some eventType =>
    simp only [reconcileChange, reconcileWith]
    cases happly : applyCorpxEvent py fresh order eventType payload with
    | error e => rfl
    | ok result =>
      obtain ⟨changed, _ | newStatus⟩ := result
      · rfl
      · have hcommit : db.commit ⟨order, changed, none, some (callbackOf settings fresh changed)⟩ = _ :=
          commit_loaded hfind (applyCorpxEvent_written happly)
        exact congrArg (fun db' => db'.toOption.getD db) hcommit

/-- A call that waits for its commit takes no other answer. -/
theorem finish_lookupPayment (change : Except PyError (Option Change)) (result : Except PyError PaymentStatus)
    (answers : List UpdateAnswer) :
    (orderUpdates py settings).finish (db, waitToCommit change) (.lookupPayment result :: answers) =
      (orderUpdates py settings).finish (db, waitToCommit change) answers := by
  rcases change with e | _ | change
  · cases answers <;> rfl
  · cases answers <;> rfl
  · rfl

theorem reconcileOrder_alone (pixOrderId : String) (lookupQr : Except PyError QrCodeStatus)
    (lookupPayment : Except PyError PaymentStatus) :
    (orderUpdates py settings).finish (startUpdate (.reconcileOrder fresh pixOrderId) db)
        [.lookupQr lookupQr, .lookupPayment lookupPayment, .database true] =
      (reconcileOrder py settings fresh db pixOrderId lookupQr lookupPayment).toOption.getD db := by
  cases hfind : findOrderById db pixOrderId with
  | none =>
    simp only [startUpdate, reconcileOrder, hfind]
    rfl
  | some order =>
    obtain rfl : order.id = pixOrderId := Table.key_of_find hfind
    cases hterm : isTerminal order.status with
    | true =>
      simp only [startUpdate, reconcileOrder, hfind, filter_live, hterm, orThrow, ↓reduceIte, bind, Except.bind]
      rfl
    | false =>
      simp only [startUpdate, reconcileOrder, hfind, filter_live, orThrow, hterm, Bool.false_eq_true, ↓reduceIte, bind,
        Except.bind]
      cases htype : order.type with
      | deposit =>
        cases lookupQr with
        | error e => rfl
        | ok qrStatus => exact (finish_lookupPayment _ _ _).trans (finish_reconcile hfind)
      | withdrawal =>
        cases lookupPayment with
        | error e => rfl
        | ok paymentStatus => exact finish_reconcile hfind

theorem orderKeys_length {webhook : CorpXWebhook} {keys : List OrderKey} (h : orderKeys webhook = .ok keys) :
    keys.length ≤ 3 := by
  have hone : ∀ {α : Type} (o : Option α), o.toList.length ≤ 1 := fun o => by cases o <;> simp
  obtain ⟨nested, -, h⟩ := bind_eq_ok.mp h
  obtain ⟨identifier, -, h⟩ := bind_eq_ok.mp h
  obtain ⟨txid, -, h⟩ := bind_eq_ok.mp h
  rw [← pure_eq_ok.mp h, List.length_append, List.length_append]
  have h₁ := hone ((identifier.filter Json.truthy).map OrderKey.identifier)
  have h₂ := hone ((txid.filter Json.truthy).map OrderKey.txid)
  have h₃ := hone (((webhook.data.field? "paymentId").filter Json.truthy).map OrderKey.paymentId)
  omega

theorem finish_findOrder {webhook : CorpXWebhook} {keys : List OrderKey} {n : Nat} (hn : keys.length < n) :
    (orderUpdates py settings).finish (db, some (.findOrder fresh webhook keys)) (List.replicate n (.database true)) =
      (do
        match ← findOrderForEvent db keys with
        | none => pure db
        | some order => do
          let change ← webhookChange py settings fresh webhook order
          db.commit change : Except PyError Db).toOption.getD db := by
  induction keys generalizing n with
  | nil =>
    obtain ⟨n, rfl⟩ : ∃ m, n = m + 1 := ⟨n - 1, by simp at hn; omega⟩
    cases n <;> rfl
  | cons key keys ih =>
    obtain ⟨n, rfl⟩ : ∃ m, n = m + 2 := ⟨n - 2, by simp at hn; omega⟩
    show (orderUpdates py settings).finish (db, afterFindOrder py settings fresh webhook (key :: keys) db)
      (List.replicate (n + 1) (.database true)) = _
    simp only [afterFindOrder, findOrderForEvent]
    cases findOrderByKey db key with
    | error e => rfl
    | ok found =>
      cases found with
      | none => exact ih (by simpa using hn)
      | some order =>
        simp only [bind, Except.bind, pure, Except.pure]
        cases webhookChange py settings fresh webhook order with
        | error e => rfl
        | ok change => cases n <;> rfl

theorem webhook_alone (webhook : CorpXWebhook) :
    (orderUpdates py settings).finish (startUpdate (.webhook fresh webhook) db) (List.replicate 4 (.database true)) =
      (processWebhookEvent py settings fresh db webhook).toOption.getD db := by
  simp only [startUpdate, processWebhookEvent]
  cases eventAlreadyProcessed db webhook.eventId with
  | error e => cases orderKeys webhook <;> rfl
  | ok processed =>
    cases processed with
    | true => cases orderKeys webhook <;> rfl
    | false =>
      cases hkeys : orderKeys webhook with
      | error e => rfl
      | ok keys => exact finish_findOrder (Nat.lt_succ_of_le (orderKeys_length hkeys))

end Alone
end CredBridge.PixService
