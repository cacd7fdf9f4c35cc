import CredBridge.PixService.Collections

/-! # The whole Pix service

All that writes to the tables of the service, at once: the creations, the webhooks of the provider, the
reconciliations, the cancellations and the outbox workers. A webhook is first one of an order; if no order is found, it
is one of a collection, or is only logged. A creation writes with its commit only, which does the same whatever came
before it since the request, so it is one step. -/

namespace CredBridge.PixService
open Concurrent Machine Result

inductive WebhookStatus where
  | ok
  | alreadyProcessed
  | ignoredOtherAccount
deriving DecidableEq, Repr

structure Service where
  tables : Tables
  /-- The requests that the outbox workers sent. -/
  sent : List Delivery
  /-- The events of the callbacks that the API answered with 2xx. -/
  acknowledged : List String
  /-- The event ids of the webhooks that were answered, and how. -/
  answered : List (String × WebhookStatus)

def Service.empty : Service := ⟨⟨.empty, []⟩, [], [], []⟩

structure ServiceEnv where
  py : Python
  text : PythonText
  settings : Settings
  outbox : OutboxSettings
  /-- `str(value).strip()`. -/
  strip : Json → String

inductive Creation where
  | deposit (request : CreateDepositOrderRequest) (createDynamicQr : Except PyError CreateQrCodeResult)
  | withdrawal (request : CreateWithdrawalOrderRequest) (dictLookup : Except PyError Unit)
      (createPixOutAsync : Except PyError PixOutResult)
  | collection (request : CreateCollectionOrderRequest) (createDynamicQr : Except PyError CreateQrCodeResult)

inductive ServiceRequest where
  | create (fresh : Fresh) (creation : Creation)
  | reconcileOrder (fresh : Fresh) (pixOrderId : String)
  | cancelOrder (pixOrderId : String)
  | cancelCollection (collectionId : String)
  /-- A webhook with a valid signature and payload. -/
  | receiveCorpxWebhook (fresh : Fresh) (webhook : CorpXWebhook)
  | sendPendingCallbacks (now : DateTime)

/-- A waiting call. One of a webhook knows the event id that it is to answer. -/
inductive ServiceCall where
  | order (webhook : Option String) (waiting : UpdateWaiting)
  | cancelCollectionQr (collection : CollectionOrder)
  | commitCollection (webhook : Option String) (change : CollectionChange)
  | batch (batch : Batch)

inductive ServiceAnswer where
  | update (answer : UpdateAnswer)
  | sender (answer : SenderAnswer)

/-! ### The shared state -/

section Shared
variable (s : Service)

def Service.outbox : List OutboxCallback := s.tables.db.outboxCallbacks

def Service.setDb (db : Db) : Service := { s with tables := { s.tables with db } }

def Service.sender : Sender := ⟨s.outbox, s.sent⟩

def Service.setSender (sender : Sender) : Service :=
  { s with
    tables := { s.tables with db := { s.tables.db with outboxCallbacks := sender.outbox } }
    sent := sender.sent }

def Service.answer (webhook : Option String) (status : WebhookStatus) : Service :=
  { s with answered := s.answered ++ (webhook.map fun eventId => (eventId, status)).toList }

/-- A commit that the database takes is answered, if it is one of a webhook. `get_db` commits once the handler has
returned; that this is before the answer is sent is how FastAPI ran such dependencies before its version 0.118, and is
assumed here. -/
def Service.commit (webhook : Option String) (reached : Bool) (result : Except PyError Tables) : Service :=
  match reached, result with
  | true, .ok tables => { s with tables }.answer webhook .ok
  | _, _ => s

end Shared

/-! ### The handlers -/

section Handler
variable (env : ServiceEnv)

def create (fresh : Fresh) (tables : Tables) : Creation → Except PyError Tables
  | .deposit request qr => do
    let db ← createDeposit env.py env.settings fresh tables.db request qr
    pure { tables with db }
  | .withdrawal request dict out => do
    let db ← createWithdrawal env.py env.settings fresh tables.db request dict out
    pure { tables with db }
  | .collection request qr => createCollection env.py env.settings fresh tables request qr

/-- The account that a payload names, on the outside or in its data. -/
def payloadAccountId (webhook : CorpXWebhook) : Option Json :=
  [webhook.rawPayload.field? "accountId", webhook.rawPayload.field? "account_id", webhook.data.field? "accountId",
    webhook.data.field? "account_id"].findSome? fun value => value.filter Json.truthy

def ofOtherAccount (webhook : CorpXWebhook) : Bool :=
  decide (env.settings.corpxAccountId ≠ "") && (payloadAccountId webhook).any fun accountId =>
    decide (env.strip accountId ≠ env.strip (.string env.settings.corpxAccountId))

def receiveCorpxWebhook (fresh : Fresh) (webhook : CorpXWebhook) (s : Service) : Service × Option ServiceCall :=
  if ofOtherAccount env webhook then
    (s.answer (some webhook.eventId) .ignoredOtherAccount, none)
  else
    match eventAlreadyProcessed s.tables.db webhook.eventId with
    | .error _ => (s, none)
    | .ok true => (s.answer (some webhook.eventId) .alreadyProcessed, none)
    | .ok false => (s, (startUpdate (.webhook fresh webhook) s.tables.db).2.map (.order (some webhook.eventId)))

def startService (request : ServiceRequest) (s : Service) : Service × Option ServiceCall :=
  match request with
  | .create fresh creation => (s.commit none true (create env fresh s.tables creation), none)
  | .reconcileOrder fresh pixOrderId =>
    (s, (startUpdate (.reconcileOrder fresh pixOrderId) s.tables.db).2.map (.order none))
  | .cancelOrder pixOrderId => (s, (startUpdate (.cancelOrder pixOrderId) s.tables.db).2.map (.order none))
  | .cancelCollection collectionId =>
    (s, (cancellableCollection s.tables collectionId).map .cancelCollectionQr)
  | .receiveCorpxWebhook fresh webhook => receiveCorpxWebhook env fresh webhook s
  | .sendPendingCallbacks now =>
    let (sender, batch) := startSender env.text (.sendPendingCallbacks now) s.sender
    (s.setSender sender, batch.map .batch)

/-- An event of no order. One of no collection either is only logged: its row is made, but not added. -/
def afterFindCollection (fresh : Fresh) (webhook : CorpXWebhook) (s : Service) : Service × Option ServiceCall :=
  match findCollectionForEvent s.tables webhook with
  | .error _ => (s, none)
  | .ok none => (s.answer (some webhook.eventId) .ok, none)
  | .ok (some collection) =>
    match processCollectionEvent env.settings fresh collection webhook.eventType webhook.data with
    | .error _ => (s, none)
    | .ok change => (s, some (.commitCollection (some webhook.eventId) change))

def resumeOrder (webhook : Option String) (waiting : UpdateWaiting) (answer : UpdateAnswer) (s : Service) :
    Service × Option ServiceCall :=
  match waiting, answer with
  -- No column is left to look the order up by.
  | .findOrder fresh event [], .database reached => if reached then afterFindCollection env fresh event s else (s, none)
  | .commit change, .database reached =>
    (s.commit webhook reached do pure { s.tables with db := ← s.tables.db.commit change }, none)
  | waiting, answer =>
    let (db, waiting) := resumeUpdate env.py env.settings waiting answer s.tables.db
    (s.setDb db, waiting.map (.order webhook))

def acknowledges (batch : Batch) (answer : SenderAnswer) : Option String :=
  match batch, answer with
  | .sending _ callback _, .response statusCode _ _ =>
    if 200 ≤ statusCode ∧ statusCode < 300 then some callback.eventId else none
  | _, _ => none

def resumeBatch (batch : Batch) (answer : SenderAnswer) (s : Service) : Service × Option ServiceCall :=
  let (sender, next) := resumeSender env.text env.outbox batch answer s.sender
  ({ s.setSender sender with acknowledged := s.acknowledged ++ (acknowledges batch answer).toList }, next.map .batch)

def resumeService (call : ServiceCall) (answer : ServiceAnswer) (s : Service) : Service × Option ServiceCall :=
  match call, answer with
  | .order webhook waiting, .update answer => resumeOrder env webhook waiting answer s
  | .cancelCollectionQr collection, .update (.cancelQr result) =>
    (s, result.toOption.map fun _ => .commitCollection none (cancelCollectionChange collection))
  | .commitCollection webhook change, .update (.database reached) =>
    (s.commit webhook reached (s.tables.commitCollection change), none)
  | .batch batch, .sender answer => resumeBatch env batch answer s
  | call, _ => (s, some call)

def pixService : Handler Service ServiceCall ServiceRequest ServiceAnswer where
  start := startService env
  resume := resumeService env

end Handler

/-! ### What waits, and what is made of it -/

/-- What a commit adds to the outbox is the callback of an order. -/
def Change.CallbackOf (settings : Settings) (change : Change) : Prop :=
  ∀ callback ∈ change.callback, ∃ fresh order, callback = callbackOf settings fresh order

/-- A call on an order is one of a webhook from its lookup on, and commits the webhook's event then. -/
def UpdateWaiting.MadeBy (settings : Settings) (webhook : Option String) : UpdateWaiting → Prop
  | .findOrder _ event _ => webhook = some event.eventId
  | .commit change => change.CallbackOf settings ∧ ∀ eventId ∈ webhook, ∃ event ∈ change.event, event.eventId = eventId
  | .lookupQr .. | .lookupPayment .. | .cancelQr _ => webhook = none

def UpdateRequest.webhookId : UpdateRequest → Option String
  | .webhook _ event => some event.eventId
  | .reconcileOrder .. | .cancelOrder _ => none

def ServiceCall.Made (settings : Settings) : ServiceCall → Prop
  | .order webhook waiting => waiting.MadeBy settings webhook
  | .commitCollection _ change => change.Made settings
  | .cancelCollectionQr _ | .batch _ => True

section Made
variable {env : ServiceEnv} {py : Python} {settings : Settings} {fresh : Fresh} {order : PixOrder} {change : Change}
  {db : Db} {webhook : Option String}

theorem webhookChange_madeBy {event : CorpXWebhook}
    (h : webhookChange py settings fresh event order = .ok change) :
    (UpdateWaiting.commit change).MadeBy settings (some event.eventId) := by
  obtain ⟨⟨changed, newStatus⟩, -, h⟩ := bind_eq_ok.mp h
  cases pure_eq_ok.mp h
  refine ⟨fun callback hcallback => ?_, fun eventId hid => ⟨_, rfl, Option.mem_some.mp hid⟩⟩
  obtain ⟨_, -, rfl⟩ := Option.map_eq_some_iff.mp hcallback
  exact ⟨fresh, changed, rfl⟩

theorem reconcileChange_madeBy {eventType : Option String} {payload : Json}
    (h : reconcileChange py settings fresh order eventType payload = .ok (some change)) :
    (UpdateWaiting.commit change).MadeBy settings none := by
  cases eventType with
  | none => cases h
  | some eventType =>
    obtain ⟨⟨changed, newStatus⟩, -, h⟩ := bind_eq_ok.mp h
    obtain ⟨_, -, rfl⟩ := Option.map_eq_some_iff.mp (pure_eq_ok.mp h)
    exact ⟨fun _ hcallback => ⟨fresh, changed, (Option.some.inj hcallback).symm⟩, nofun⟩

theorem cancelChange_madeBy : (UpdateWaiting.commit (cancelChange order)).MadeBy settings none := ⟨nofun, nofun⟩

theorem startUpdate_madeBy (request : UpdateRequest) :
    ∀ waiting ∈ (startUpdate request db).2, waiting.MadeBy settings request.webhookId := by
  intro waiting h
  cases request with
  | webhook fresh event =>
    simp only [startUpdate] at h
    split at h
    · cases h
      rfl
    · cases h
  | reconcileOrder fresh pixOrderId =>
    simp only [startUpdate] at h
    split at h
    · cases h
    · split at h <;> · cases h; rfl
  | cancelOrder pixOrderId =>
    simp only [startUpdate] at h
    split at h
    · cases h
    · next order _ =>
      cases h
      by_cases htype : order.type = .deposit
      · rw [if_pos htype]
        rfl
      · rw [if_neg htype]
        exact cancelChange_madeBy

theorem resumeUpdate_madeBy {waiting : UpdateWaiting} (hmade : waiting.MadeBy settings webhook) (answer : UpdateAnswer) :
    ∀ next ∈ (resumeUpdate py settings waiting answer db).2, next.MadeBy settings webhook := by
  intro next hnext
  cases resumeUpdate_next next hnext with
  | waits => exact hmade
  | searches => exact hmade
  | found fresh event key keys order change hfind h =>
    obtain rfl : webhook = some event.eventId := hmade
    exact webhookChange_madeBy h
  | deposit fresh order eventType payload change h | withdrawal fresh order eventType payload change h =>
    obtain rfl : webhook = none := hmade
    exact reconcileChange_madeBy h
  | cancels order =>
    obtain rfl : webhook = none := hmade
    exact cancelChange_madeBy

/-- What waits after a start. -/
inductive StartedCall (env : ServiceEnv) (request : ServiceRequest) (s : Service) (call : ServiceCall) : Prop where
  | order (update : UpdateRequest) (waiting : UpdateWaiting)
      (hwaiting : (startUpdate update s.tables.db).2 = some waiting) (hcall : call = .order update.webhookId waiting)
  | cancelCollection (collectionId : String) (collection : CollectionOrder)
      (hcollection : cancellableCollection s.tables collectionId = some collection)
      (hcall : call = .cancelCollectionQr collection)
  | batch (now : DateTime) (batch : Batch) (hrequest : request = .sendPendingCallbacks now)
      (hbatch : (startSender env.text (.sendPendingCallbacks now) s.sender).2 = some batch) (hcall : call = .batch batch)

/-- What waits after an answer. -/
inductive NextCall (env : ServiceEnv) (call : ServiceCall) (answer : ServiceAnswer) (s : Service) (next : ServiceCall) :
    Prop where
  | order (webhook : Option String) (waiting waiting' : UpdateWaiting) (answer' : UpdateAnswer)
      (hcall : call = .order webhook waiting)
      (hwaiting : (resumeUpdate env.py env.settings waiting answer' s.tables.db).2 = some waiting')
      (hnext : next = .order webhook waiting')
  | collectionEvent (webhook : Option String) (fresh : Fresh) (event : CorpXWebhook) (collection : CollectionOrder)
      (change : CollectionChange) (hcall : call = .order webhook (.findOrder fresh event []))
      (hanswer : answer = .update (.database true))
      (hfind : findCollectionForEvent s.tables event = .ok (some collection))
      (hchange : processCollectionEvent env.settings fresh collection event.eventType event.data = .ok change)
      (hnext : next = .commitCollection (some event.eventId) change)
  | cancellation (collection : CollectionOrder) (hcall : call = .cancelCollectionQr collection)
      (hnext : next = .commitCollection none (cancelCollectionChange collection))
  | batch (batch batch' : Batch) (answer' : SenderAnswer) (hcall : call = .batch batch)
      (hbatch : (resumeSender env.text env.outbox batch answer' s.sender).2 = some batch') (hnext : next = .batch batch')
  | waits (hnext : next = call)

theorem startService_next {request : ServiceRequest} {s : Service} {call : ServiceCall}
    (h : (startService env request s).2 = some call) : StartedCall env request s call := by
  cases request with
  | create fresh creation => cases h
  | reconcileOrder fresh pixOrderId =>
    obtain ⟨waiting, hwaiting, rfl⟩ := Option.map_eq_some_iff.mp h
    exact .order (.reconcileOrder fresh pixOrderId) waiting hwaiting rfl
  | cancelOrder pixOrderId =>
    obtain ⟨waiting, hwaiting, rfl⟩ := Option.map_eq_some_iff.mp h
    exact .order (.cancelOrder pixOrderId) waiting hwaiting rfl
  | cancelCollection collectionId =>
    obtain ⟨collection, hcollection, rfl⟩ := Option.map_eq_some_iff.mp h
    exact .cancelCollection collectionId collection hcollection rfl
  | receiveCorpxWebhook fresh webhook =>
    simp only [startService, receiveCorpxWebhook] at h
    split at h
    · cases h
    · split at h
      · cases h
      · cases h
      · obtain ⟨waiting, hwaiting, rfl⟩ := Option.map_eq_some_iff.mp h
        exact .order (.webhook fresh webhook) waiting hwaiting rfl
  | sendPendingCallbacks now =>
    obtain ⟨batch, hbatch, rfl⟩ := Option.map_eq_some_iff.mp h
    exact .batch now batch rfl hbatch rfl

theorem resumeOrder_next {waiting : UpdateWaiting} {answer : UpdateAnswer} {s : Service} {next : ServiceCall}
    (h : (resumeOrder env webhook waiting answer s).2 = some next) :
    NextCall env (.order webhook waiting) (.update answer) s next := by
  unfold resumeOrder at h
  split at h
  · next fresh event reached =>
    cases reached with
    | false => cases h
    | true =>
      simp only [afterFindCollection, ↓reduceIte] at h
      split at h
      · cases h
      · cases h
      · next collection hfind =>
        split at h
        · cases h
        · next change hchange =>
          cases h
          exact .collectionEvent webhook fresh event collection change rfl rfl hfind hchange rfl
  · cases h
  · obtain ⟨waiting', hwaiting, rfl⟩ := Option.map_eq_some_iff.mp h
    exact .order webhook waiting waiting' answer rfl hwaiting rfl

theorem resumeService_next {call : ServiceCall} {answer : ServiceAnswer} {s : Service} {next : ServiceCall}
    (h : (resumeService env call answer s).2 = some next) : NextCall env call answer s next := by
  unfold resumeService at h
  split at h
  · exact resumeOrder_next h
  · next collection result =>
    obtain ⟨_, -, rfl⟩ := Option.map_eq_some_iff.mp h
    exact .cancellation collection rfl rfl
  · cases h
  · next batch answer =>
    obtain ⟨batch', hbatch, rfl⟩ := Option.map_eq_some_iff.mp h
    exact .batch batch batch' answer rfl hbatch rfl
  · cases h
    exact .waits rfl

theorem startService_made (request : ServiceRequest) (s : Service) :
    ∀ call ∈ (startService env request s).2, call.Made env.settings := by
  intro call hcall
  rcases startService_next hcall with ⟨update, waiting, hwaiting, rfl⟩ | ⟨_, _, -, rfl⟩ | ⟨_, _, -, -, rfl⟩
  · exact startUpdate_madeBy update waiting hwaiting
  · trivial
  · trivial

theorem resumeService_made {call : ServiceCall} (hmade : call.Made env.settings) (answer : ServiceAnswer)
    (s : Service) : ∀ next ∈ (resumeService env call answer s).2, next.Made env.settings := by
  intro next hnext
  rcases resumeService_next hnext with ⟨_, waiting, waiting', answer', rfl, hwaiting, rfl⟩ |
    ⟨_, _, _, _, change, -, -, -, hchange, rfl⟩ | ⟨collection, -, rfl⟩ | ⟨_, _, _, -, -, rfl⟩ | rfl
  · exact resumeUpdate_madeBy hmade answer' waiting' hwaiting
  · exact (processCollectionEvent_made hchange).2
  · exact cancelCollectionChange_made collection
  · trivial
  · exact hmade

def AllMade (env : ServiceEnv) (c : Config Service ServiceCall) : Prop := ∀ call ∈ c.calls, call.Made env.settings

theorem AllMade.step {c c' : Config Service ServiceCall} {op : Op ServiceRequest ServiceAnswer} (hc : AllMade env c)
    (hstep : (pixService env).step c op = .ok c') : AllMade env c' := by
  have outline : Outline (pixService env) (fun _ _ => True) (fun _ _ _ => True) (fun _ => True)
      (fun _ call => call.Made env.settings) (fun _ _ => True) :=
    ⟨fun request s _ _ => ⟨trivial, trivial, startService_made request s⟩,
      fun call answer s _ hmade _ => ⟨trivial, trivial, resumeService_made hmade answer s⟩, fun _ _ _ _ hmade => hmade⟩
  exact (outline.step ⟨trivial, hc⟩ (allows_all (fun _ _ => trivial) (fun _ _ _ => trivial) c op) hstep).2

end Made

/-! ### What a step writes -/

/-- The change of a collection that a step commits. -/
def committedCollection (s : Service) (call : ServiceCall) (answer : ServiceAnswer) : Option CollectionChange :=
  match call, answer with
  | .commitCollection _ change, .update (.database true) =>
    if (s.tables.commitCollection change).toOption.isSome then some change else none
  | _, _ => none

inductive ServiceStarted (env : ServiceEnv) (request : ServiceRequest) (s s' : Service) : Prop where
  | created (fresh : Fresh) (creation : Creation) (tables : Tables) (hrequest : request = .create fresh creation)
      (hcreate : create env fresh s.tables creation = .ok tables) (hs' : s' = { s with tables })
  | answered (fresh : Fresh) (webhook : CorpXWebhook) (status : WebhookStatus)
      (hrequest : request = .receiveCorpxWebhook fresh webhook) (hstatus : status ≠ .ok)
      (hs' : s' = s.answer (some webhook.eventId) status)
  | sent (now : DateTime) (hrequest : request = .sendPendingCallbacks now)
      (hs' : s' = s.setSender (startSender env.text (.sendPendingCallbacks now) s.sender).1)
  | unchanged (hs' : s' = s)

inductive ServiceResumed (env : ServiceEnv) (call : ServiceCall) (answer : ServiceAnswer) (s s' : Service) : Prop where
  | logged (webhook : Option String) (fresh : Fresh) (event : CorpXWebhook)
      (hcall : call = .order webhook (.findOrder fresh event [])) (hanswer : answer = .update (.database true))
      (hfind : findCollectionForEvent s.tables event = .ok none) (hs' : s' = s.answer (some event.eventId) .ok)
  | order (webhook : Option String) (change : Change) (db : Db) (hcall : call = .order webhook (.commit change))
      (hcommit : s.tables.db.commit change = .ok db) (hs' : s' = (s.setDb db).answer webhook .ok)
  | collection (webhook : Option String) (change : CollectionChange) (tables : Tables)
      (hcall : call = .commitCollection webhook change) (hcommitted : committedCollection s call answer = some change)
      (hcommit : s.tables.commitCollection change = .ok tables) (hs' : s' = { s with tables }.answer webhook .ok)
  | batch (batch : Batch) (answer' : SenderAnswer) (hcall : call = .batch batch) (hanswer : answer = .sender answer')
      (hs' : s' = (resumeBatch env batch answer' s).1)
  | unchanged (hcommitted : committedCollection s call answer = none) (hs' : s' = s)

/-- A creation adds an order with its first event, or a collection that is not paid. -/
inductive Created (tables tables' : Tables) : Prop where
  | order (order : PixOrder) (event : PixEvent)
      (hevent : Table.find PixEvent.eventId event.eventId tables.db.pixEvents = none)
      (htables : tables' = { tables with
        db := { tables.db with
          pixOrders := tables.db.pixOrders ++ [order]
          pixEvents := tables.db.pixEvents ++ [event] } })
  | collection (collection : CollectionOrder) (hnew : findCollectionById tables collection.id = none)
      (hstatus : collection.status = .pendingPayment)
      (htables : tables' = { tables with collectionOrders := tables.collectionOrders ++ [collection] })
  | unchanged (htables : tables' = tables)

section Writes
variable {env : ServiceEnv} {s : Service} {webhook : Option String}

theorem Created.of_persisted {tables : Tables} {db : Db} {order : PixOrder} {eventType : String} {payload : Json}
    (h : persistOrder tables.db order eventType payload = .ok db) : Created tables { tables with db } := by
  obtain ⟨-, event, hevent, rfl⟩ := persistOrder_inv h
  exact .order order event hevent rfl

theorem create_created {fresh : Fresh} {tables tables' : Tables} {creation : Creation}
    (h : create env fresh tables creation = .ok tables') : Created tables tables' := by
  cases creation with
  | deposit request qr =>
    obtain ⟨db, hdb, h⟩ := bind_eq_ok.mp h
    cases pure_eq_ok.mp h
    rcases createDeposit_inv hdb with rfl | ⟨_, _, hpersist⟩
    · exact .unchanged rfl
    · exact .of_persisted hpersist
  | withdrawal request dict out =>
    obtain ⟨db, hdb, h⟩ := bind_eq_ok.mp h
    cases pure_eq_ok.mp h
    rcases createWithdrawal_inv hdb with rfl | ⟨_, _, hpersist⟩
    · exact .unchanged rfl
    · exact .of_persisted hpersist
  | collection request qr =>
    obtain ⟨_, -, h⟩ := bind_eq_ok.mp h
    obtain ⟨_, -, h⟩ := bind_eq_ok.mp h
    obtain ⟨hnew, htables⟩ := insertCollection_inv h
    exact .collection _ hnew rfl htables

/-- An order that a creation adds has a new id. -/
theorem create_orders {fresh : Fresh} {tables tables' : Tables} {creation : Creation}
    (h : create env fresh tables creation = .ok tables') : tables'.db.pixOrders = tables.db.pixOrders ∨
      ∃ order, findOrderById tables.db order.id = none ∧ tables'.db.pixOrders = tables.db.pixOrders ++ [order] := by
  cases creation with
  | deposit request qr =>
    obtain ⟨db, hdb, h⟩ := bind_eq_ok.mp h
    cases pure_eq_ok.mp h
    rcases createDeposit_inv hdb with rfl | ⟨_, _, hpersist⟩
    · exact .inl rfl
    · obtain ⟨hnew, _, -, rfl⟩ := persistOrder_inv hpersist
      exact .inr ⟨_, hnew, rfl⟩
  | withdrawal request dict out =>
    obtain ⟨db, hdb, h⟩ := bind_eq_ok.mp h
    cases pure_eq_ok.mp h
    rcases createWithdrawal_inv hdb with rfl | ⟨_, _, hpersist⟩
    · exact .inl rfl
    · obtain ⟨hnew, _, -, rfl⟩ := persistOrder_inv hpersist
      exact .inr ⟨_, hnew, rfl⟩
  | collection request qr =>
    obtain ⟨_, -, h⟩ := bind_eq_ok.mp h
    obtain ⟨_, -, h⟩ := bind_eq_ok.mp h
    obtain ⟨-, htables⟩ := insertCollection_inv h
    exact .inl (by rw [htables])

theorem Created.outbox {tables tables' : Tables} (h : Created tables tables') :
    tables'.db.outboxCallbacks = tables.db.outboxCallbacks := by
  rcases h with ⟨_, _, -, rfl⟩ | ⟨_, -, -, rfl⟩ | rfl <;> rfl

theorem startService_started (request : ServiceRequest) :
    ServiceStarted env request s (startService env request s).1 := by
  cases request with
  | create fresh creation =>
    cases hcreate : create env fresh s.tables creation with
    | error e => exact .unchanged (by simp only [startService, hcreate, Service.commit])
    | ok tables =>
      refine .created fresh creation tables rfl hcreate ?_
      simp only [startService, hcreate, Service.commit, Service.answer, Option.map_none, Option.toList_none,
        List.append_nil]
  | reconcileOrder fresh pixOrderId | cancelOrder pixOrderId | cancelCollection collectionId => exact .unchanged rfl
  | receiveCorpxWebhook fresh webhook =>
    simp only [startService, receiveCorpxWebhook]
    split
    · exact .answered fresh webhook .ignoredOtherAccount rfl (fun h => by cases h) rfl
    · split
      · exact .unchanged rfl
      · exact .answered fresh webhook .alreadyProcessed rfl (fun h => by cases h) rfl
      · exact .unchanged rfl
  | sendPendingCallbacks now => exact .sent now rfl rfl

theorem afterFindCollection_shared (fresh : Fresh) (event : CorpXWebhook) (s : Service) :
    (afterFindCollection env fresh event s).1 = s ∨ findCollectionForEvent s.tables event = .ok none ∧
      (afterFindCollection env fresh event s).1 = s.answer (some event.eventId) .ok := by
  unfold afterFindCollection
  split
  · exact .inl rfl
  · next hfind => exact .inr ⟨hfind, rfl⟩
  · split <;> exact .inl rfl

/-- Only a commit changes the tables. -/
theorem resumeUpdate_db {py : Python} {settings : Settings} {db : Db} {waiting : UpdateWaiting} {answer : UpdateAnswer}
    (h : ∀ change reached, waiting = .commit change → answer = .database reached → False) :
    (resumeUpdate py settings waiting answer db).1 = db := by
  unfold resumeUpdate
  split
  · rfl
  · rfl
  · rfl
  · rfl
  · exact (h _ _ rfl rfl).elim
  · rfl

theorem resumeOrder_resumed (waiting : UpdateWaiting) (answer : UpdateAnswer) :
    ServiceResumed env (.order webhook waiting) (.update answer) s (resumeOrder env webhook waiting answer s).1 := by
  unfold resumeOrder
  split
  · next fresh event reached =>
    cases reached with
    | false => exact .unchanged rfl rfl
    | true =>
      rcases afterFindCollection_shared fresh event s with h | ⟨hfind, h⟩
      · exact .unchanged rfl h
      · exact .logged webhook fresh event rfl rfl hfind h
  · next change reached =>
    cases reached with
    | false => exact .unchanged rfl rfl
    | true =>
      cases hcommit : s.tables.db.commit change with
      | error e => exact .unchanged rfl rfl
      | ok db => exact .order webhook change db rfl hcommit rfl
  · next hnot => exact .unchanged rfl (congrArg s.setDb (resumeUpdate_db fun change reached => hnot change reached))

theorem resumeService_resumed (call : ServiceCall) (answer : ServiceAnswer) :
    ServiceResumed env call answer s (resumeService env call answer s).1 := by
  unfold resumeService
  split
  · exact resumeOrder_resumed _ _
  · exact .unchanged rfl rfl
  · next webhook change reached =>
    cases reached with
    | false => exact .unchanged rfl rfl
    | true =>
      cases hcommit : s.tables.commitCollection change with
      | error e => exact .unchanged (by simp [committedCollection, hcommit, Except.toOption]) rfl
      | ok tables =>
        exact .collection webhook change tables rfl (by simp [committedCollection, hcommit, Except.toOption]) hcommit rfl
  · next batch answer => exact .batch batch answer rfl rfl rfl
  · next hnot _ =>
    refine .unchanged ?_ rfl
    unfold committedCollection
    split
    · exact (hnot _ _ _ rfl rfl).elim
    · rfl

end Writes

/-! ### A small setting -/

def testService : ServiceEnv := ⟨plainPython, ⟨id, fun _ => ""⟩, testSettings, ⟨5, 30⟩, fun _ => ""⟩

def collectionRequest : CreateCollectionOrderRequest := ⟨"receivable", "pme", "debtor", "00000000000191", 100, 9, 9, none⟩

def newCollection : Op ServiceRequest ServiceAnswer :=
  .start (.create ⟨"c", "1", "", 0, 0⟩ (.collection collectionRequest (.ok ⟨"txid", "", "location"⟩)))

def newDeposit (id : String) : Op ServiceRequest ServiceAnswer :=
  .start (.create ⟨id, id, "", 0, 0⟩ (.deposit { depositRequest with externalId := id } (.ok ⟨"txid", "", "location"⟩)))

def newWithdrawal : Op ServiceRequest ServiceAnswer :=
  .start (.create ⟨"w", "1", "1", 0, 0⟩ (.withdrawal withdrawalRequest (.ok ()) (.ok ⟨"payment", "CREATED"⟩)))

/-- The webhook of a deposit's payment, alone: the order, and the commit. -/
def depositWebhook (id : String) : List (Op ServiceRequest ServiceAnswer) :=
  [.start (.receiveCorpxWebhook ⟨"", "", id, 1, 1⟩
      ⟨"paid " ++ id, "qrcode.paid", .object [("identifier", .string ("cbd_" ++ id))], .object []⟩),
    .resume 0 (.update (.database true)), .resume 0 (.update (.database true))]

/-- A webhook that names the collection, alone: no order, the collection, and the commit. -/
def collectionWebhook (eventId eventType callbackEventId : String) (now : DateTime) :
    List (Op ServiceRequest ServiceAnswer) :=
  [.start (.receiveCorpxWebhook ⟨"", "", callbackEventId, now, now⟩
      ⟨eventId, eventType, .object [("identifier", .string "col_1"), ("endToEndId", .string eventId)], .object []⟩),
    .resume 0 (.update (.database true)), .resume 0 (.update (.database true)), .resume 0 (.update (.database true))]

end CredBridge.PixService
