import CredBridge.PixService.Hmac
import CredBridge.PixService.Service

/-! # The webhook endpoint

A webhook from its raw body to its answer, with nothing else under way. What the endpoint raises on purpose is an answer
of its own; any other exception leaves it unhandled, and its session writes nothing. -/

namespace CredBridge.PixService
open Concurrent Result

structure WebhookRequest where
  rawBody : List UInt8
  /-- The header X-CorpX-Signature. -/
  corpxSignature : Option String
  /-- The header X-Signature. -/
  signature : Option String

/-- The service with the secret of its webhooks. The keyed hash and the reading of a JSON text are parameters. -/
structure WebhookEnv extends ServiceEnv where
  corpxWebhookSecret : String
  hmacSha256 : (key message : List UInt8) → Vector UInt8 32
  loads : List UInt8 → Except PyError Json

inductive WebhookAnswer where
  | status (status : WebhookStatus)
  | httpException (statusCode : Nat) (detail : String)
deriving DecidableEq, Repr

structure CorpXWebhookPayload where
  eventId : Option String
  eventType : String
  data : Json

/-! ### The payload -/

/-- The first of the aliases that the object has. -/
def aliasChoice (body : Json) (aliases : List String) : Option Json := aliases.findSome? body.field?

def readEventId (body : Json) : Except PyError (Option String) :=
  match aliasChoice body ["eventId", "event_id", "id"] with
  | none | some .null => pure none
  | some (.string eventId) => pure (some eventId)
  | some _ => .error (.valueError "event_id")

def readEventType (body : Json) : Except PyError String :=
  match aliasChoice body ["eventType", "event_type", "type"] with
  | some (.string eventType) => pure eventType
  | _ => .error (.valueError "event_type")

def readData (body : Json) : Except PyError Json :=
  match body.field? "data" with
  | none => pure (.object [])
  | some (.object fields) => pure (.object fields)
  | some _ => .error (.valueError "data")

/-- `CorpXWebhookPayload(**body)`. -/
def parsePayload (body : Json) : Except PyError CorpXWebhookPayload :=
  match body with
  | .object _ => do
    let eventId ← readEventId body
    let eventType ← readEventType body
    let data ← readData body
    pure { eventId, eventType, data }
  | _ => .error .typeError

/-! ### The handler -/

/-- An event of no order, and the commit of its session. One of no collection either is only logged. -/
def Tables.processCollectionEvent (env : ServiceEnv) (fresh : Fresh) (tables : Tables) (webhook : CorpXWebhook) :
    Except PyError Tables := do
  match ← findCollectionForEvent tables webhook with
  | none => pure tables
  | some collection => do
    let change ← PixService.processCollectionEvent env.settings fresh collection webhook.eventType webhook.data
    tables.commitCollection change

/-- An event that is looked up by these keys, and the commit of its session. -/
def Tables.processEventOf (env : ServiceEnv) (fresh : Fresh) (tables : Tables) (webhook : CorpXWebhook)
    (keys : List OrderKey) : Except PyError Tables := do
  match ← findOrderForEvent tables.db keys with
  | some order => do
    let change ← webhookChange env.py env.settings fresh webhook order
    let db ← tables.db.commit change
    pure { tables with db }
  | none => tables.processCollectionEvent env fresh webhook

/-- `_process_webhook_event`. -/
def Tables.processWebhookEvent (env : ServiceEnv) (fresh : Fresh) (tables : Tables) (webhook : CorpXWebhook) :
    Except PyError Tables := do
  let keys ← orderKeys webhook
  tables.processEventOf env fresh webhook keys

/-- What follows the parsing of a webhook. -/
def handleCorpxWebhook (env : ServiceEnv) (fresh : Fresh) (tables : Tables) (webhook : CorpXWebhook) :
    Except PyError (WebhookStatus × Tables) :=
  if ofOtherAccount env webhook then
    pure (.ignoredOtherAccount, tables)
  else do
    match ← eventAlreadyProcessed tables.db webhook.eventId with
    | true => pure (.alreadyProcessed, tables)
    | false => do
      let tables ← tables.processWebhookEvent env fresh webhook
      pure (.ok, tables)

section Endpoint
variable (env : WebhookEnv)

def WebhookRequest.signatureHeader (request : WebhookRequest) : Option String :=
  (request.corpxSignature.filter (· ≠ "")).or request.signature

/-- The webhook of a request, if its body can be parsed; `eventId` is drawn for one without an id. -/
def webhookOfRequest (eventId : String) (request : WebhookRequest) : Except PyError CorpXWebhook := do
  let body ← env.loads request.rawBody
  let payload ← parsePayload body
  pure
    { eventId := (payload.eventId.filter (· ≠ "")).getD eventId
      eventType := payload.eventType
      data := payload.data
      rawPayload := body }

/-- `receive_corpx_webhook`, with the commit of its session, which is taken to precede the answer. -/
def receiveWebhook (fresh : Fresh) (eventId : String) (tables : Tables) (request : WebhookRequest) :
    Except PyError (WebhookAnswer × Tables) := do
  if ← verifyCorpxHmacSignature env.hmacSha256 request.rawBody request.signatureHeader env.corpxWebhookSecret then
    match webhookOfRequest env eventId request with
    | .error _ => pure (.httpException 400 "Payload de webhook inválido", tables)
    | .ok webhook => do
      let (status, tables) ← handleCorpxWebhook env.toServiceEnv fresh tables webhook
      pure (.status status, tables)
  else
    pure (.httpException 401 "Assinatura HMAC inválida", tables)

end Endpoint

/-! ### A webhook alone

The handler does what the webhook does in the service when no other call takes a step meanwhile. -/

section Alone
variable {env : ServiceEnv} {fresh : Fresh} {s : Service} {webhook : CorpXWebhook}

/-- What is left of a webhook that was handled: its answer and its writes, or nothing. -/
def Service.handled (s : Service) (webhook : CorpXWebhook) (result : Except PyError (WebhookStatus × Tables)) : Service :=
  match result with
  | .ok (status, tables) => { s with tables }.answer (some webhook.eventId) status
  | .error _ => s

theorem finish_over (s : Service) (answers : List ServiceAnswer) : (pixService env).finish (s, none) answers = s := by
  cases answers <;> rfl

theorem finish_reached {s : Service} {call : ServiceCall} {n : Nat} :
    (pixService env).finish (s, some call) (List.replicate (n + 1) (.update (.database true))) =
      (pixService env).finish (resumeService env call (.update (.database true)) s)
        (List.replicate n (.update (.database true))) := rfl

theorem finish_afterFindCollection {n : Nat} :
    (pixService env).finish (afterFindCollection env fresh webhook s) (List.replicate (n + 1) (.update (.database true))) =
      s.handled webhook (Prod.mk .ok <$> s.tables.processCollectionEvent env fresh webhook) := by
  unfold afterFindCollection Tables.processCollectionEvent
  cases findCollectionForEvent s.tables webhook with
  | error e => rfl
  | ok found =>
    cases found with
    | none => rfl
    | some collection =>
      simp only [bind, Except.bind]
      cases processCollectionEvent env.settings fresh collection webhook.eventType webhook.data with
      | error e => rfl
      | ok change =>
        simp only [finish_reached, resumeService]
        cases s.tables.commitCollection change with
        | error e => exact finish_over _ _
        | ok tables => exact finish_over _ _

theorem finish_findOrderKeys {keys : List OrderKey} {n : Nat} (hn : keys.length + 1 < n) :
    (pixService env).finish (s, some (.order (some webhook.eventId) (.findOrder fresh webhook keys)))
        (List.replicate n (.update (.database true))) =
      s.handled webhook (Prod.mk .ok <$> s.tables.processEventOf env fresh webhook keys) := by
  induction keys generalizing n with
  | nil =>
    obtain ⟨n, rfl⟩ : ∃ m, n = m + 2 := ⟨n - 2, by simp at hn; omega⟩
    exact finish_afterFindCollection
  | cons key keys ih =>
    obtain ⟨n, rfl⟩ : ∃ m, n = m + 2 := ⟨n - 2, by simp at hn; omega⟩
    rw [finish_reached]
    show (pixService env).finish (s, (afterFindOrder env.py env.settings fresh webhook (key :: keys) s.tables.db).map
      (.order (some webhook.eventId))) (List.replicate (n + 1) (.update (.database true))) = _
    simp only [afterFindOrder, Tables.processEventOf, findOrderForEvent]
    cases findOrderByKey s.tables.db key with
    | error e => rfl
    | ok found =>
      cases found with
      | none => exact ih (by simp at hn; omega)
      | some order =>
        simp only [bind, Except.bind, pure, Except.pure]
        cases webhookChange env.py env.settings fresh webhook order with
        | error e => rfl
        | ok change =>
          show (pixService env).finish (s.commit (some webhook.eventId) true do
            pure { s.tables with db := ← s.tables.db.commit change }, none) _ = _
          rw [finish_over]
          cases hcommit : s.tables.db.commit change with
          | error e => simp only [hcommit]; rfl
          | ok db => simp only [hcommit]; rfl

theorem receiveCorpxWebhook_alone :
    (pixService env).finish (startService env (.receiveCorpxWebhook fresh webhook) s)
        (List.replicate 5 (.update (.database true))) =
      s.handled webhook (handleCorpxWebhook env fresh s.tables webhook) := by
  simp only [startService, receiveCorpxWebhook, handleCorpxWebhook]
  split
  · rfl
  · cases hprocessed : eventAlreadyProcessed s.tables.db webhook.eventId with
    | error e => rfl
    | ok processed =>
      cases processed with
      | true => rfl
      | false =>
        simp only [startUpdate, hprocessed, Tables.processWebhookEvent]
        cases hkeys : orderKeys webhook with
        | error e => rfl
        | ok keys =>
          have hlength := orderKeys_length hkeys
          refine (finish_findOrderKeys (by omega)).trans (congrArg (s.handled webhook) ?_)
          show _ = s.tables.processEventOf env fresh webhook keys >>= fun tables => pure (WebhookStatus.ok, tables)
          cases s.tables.processEventOf env fresh webhook keys <;> rfl

end Alone
end CredBridge.PixService
