import CredBridge.Lib.Rounds
import CredBridge.PixService.OrderUpdates

/-! # The outbox worker

A worker takes the callbacks that are due, sends them to the API one after the other, and commits what became of them
together. Any number of workers run at once, each on its own copies; a request may reach the API whatever the worker
hears of it. -/

namespace CredBridge.PixService
open Concurrent Machine Result

structure OutboxSettings where
  callbackMaxAttempts : Nat
  callbackBaseDelaySeconds : Int

/-- How the service titles a word, and dumps a value with sorted keys. -/
structure PythonText where
  title : String → String
  dumps : Json → String

/-- A request to the API: the `X-CredBridge-Pix-Event-Id` header, and the body. -/
structure Delivery where
  eventId : String
  body : String
deriving DecidableEq

structure Sender where
  outbox : List OutboxCallback
  /-- The requests that were sent. -/
  sent : List Delivery

/-- A callback as it was loaded, and as it is to be written. -/
structure Attempt where
  loaded : OutboxCallback
  changed : OutboxCallback

inductive Batch where
  | sending (attempts : List Attempt) (callback : OutboxCallback) (callbacks : List OutboxCallback)
  | commit (attempts : List Attempt)

inductive SenderRequest where
  | enqueue (callback : OutboxCallback)
  | sendPendingCallbacks (now : DateTime)

inductive SenderAnswer where
  | response (statusCode : Nat) (text : String) (now : DateTime)
  /-- A `ConnectError` or a `TimeoutException`. -/
  | networkError (message : String) (now : DateTime)
  /-- Any other exception, which ends the batch. -/
  | raised
  | database (reached : Bool)

section Worker
variable (text : PythonText) (settings : OutboxSettings)

def toCamelCase (snakeStr : String) : String :=
  match snakeStr.splitOn "_" with
  | [] => ""
  | first :: rest => first ++ String.join (rest.map text.title)

/-- A key that is there already keeps its place and takes the new value. -/
def insertKey (fields : List (String × Json)) (key : String) (value : Json) : List (String × Json) :=
  if fields.any (·.1 = key) then fields.map fun f => if f.1 = key then (key, value) else f else fields ++ [(key, value)]

def ensureCamelCaseKeys (payload : Json) : Except PyError Json :=
  if payload.truthy = false then
    pure (.object [])
  else
    match payload with
    | .object fields => pure (.object (fields.foldl (fun fs f => insertKey fs (toCamelCase text f.1) f.2) []))
    | _ => .error .other

def deliveryOf (callback : OutboxCallback) : Except PyError Delivery := do
  let payload ← ensureCamelCaseKeys text callback.payloadJson
  pure ⟨callback.eventId, text.dumps payload⟩

def due (now : DateTime) (callback : OutboxCallback) : Bool :=
  decide (callback.status = .pending) && callback.nextAttemptAt.any (· ≤ now)

/-- The first 50 callbacks that are due, in the order of their creation. -/
def dueCallbacks (now : DateTime) (outbox : List OutboxCallback) : List OutboxCallback :=
  Rounds.first OutboxCallback.createdAt (due now) 50 outbox

def scheduleRetry (callback : OutboxCallback) (error : String) (now : DateTime) : OutboxCallback :=
  if callback.attemptCount ≥ settings.callbackMaxAttempts then
    { callback with lastError := some error, status := .failed }
  else
    { callback with
      lastError := some error
      nextAttemptAt := some (now + settings.callbackBaseDelaySeconds * 2 ^ (callback.attemptCount - 1)) }

def httpError (statusCode : Nat) (text : String) : String :=
  "HTTP " ++ toString statusCode ++ ": " ++ String.ofList (text.toList.take 200)

/-- `_attempt_send` after the request, with the attempt counted; an exception that it does not catch passes. -/
def afterSend (callback : OutboxCallback) : SenderAnswer → Option OutboxCallback
  | .response statusCode text now =>
    some (if 200 ≤ statusCode ∧ statusCode < 300 then { callback with status := .sent, lastError := none }
      else scheduleRetry settings callback (httpError statusCode text) now)
  | .networkError message now => some (scheduleRetry settings callback message now)
  | .raised | .database _ => none

/-- The next callback is sent; a payload that cannot be sent ends the batch. -/
def sendNext (s : Sender) (attempts : List Attempt) : List OutboxCallback → Sender × Option Batch
  | [] => (s, some (.commit attempts))
  | callback :: callbacks =>
    match deliveryOf text callback with
    | .error _ => (s, none)
    | .ok delivery => ({ s with sent := s.sent ++ [delivery] }, some (.sending attempts callback callbacks))

def countAttempt (callback : OutboxCallback) : OutboxCallback :=
  { callback with attemptCount := callback.attemptCount + 1 }

def Attempt.write (outbox : List OutboxCallback) (attempt : Attempt) : List OutboxCallback :=
  Table.modify OutboxCallback.eventId attempt.loaded.eventId (fun stored =>
    { stored with
      status := written attempt.loaded.status attempt.changed.status stored.status
      attemptCount := written attempt.loaded.attemptCount attempt.changed.attemptCount stored.attemptCount
      nextAttemptAt := written attempt.loaded.nextAttemptAt attempt.changed.nextAttemptAt stored.nextAttemptAt
      lastError := written attempt.loaded.lastError attempt.changed.lastError stored.lastError }) outbox

def startSender (request : SenderRequest) (s : Sender) : Sender × Option Batch :=
  match request with
  | .enqueue callback =>
    if (Table.find OutboxCallback.eventId callback.eventId s.outbox).isSome then (s, none)
    else ({ s with outbox := s.outbox ++ [callback] }, none)
  | .sendPendingCallbacks now =>
    match dueCallbacks now s.outbox with
    | [] => (s, none)
    | callbacks => sendNext text s [] callbacks

def resumeSender (batch : Batch) (answer : SenderAnswer) (s : Sender) : Sender × Option Batch :=
  match batch, answer with
  | .commit attempts, .database reached =>
    (if reached then { s with outbox := attempts.foldl Attempt.write s.outbox } else s, none)
  | .commit attempts, _ => (s, some (.commit attempts))
  | .sending attempts callback callbacks, answer =>
    match afterSend settings (countAttempt callback) answer with
    | none => (s, none)
    | some changed => sendNext text s (attempts ++ [⟨callback, changed⟩]) callbacks

def outboxWorkers : Handler Sender Batch SenderRequest SenderAnswer where
  start := startSender text
  resume := resumeSender text settings

end Worker

/-! ### What a batch does -/

def Batch.attempts : Batch → List Attempt
  | .sending attempts _ _ => attempts
  | .commit attempts => attempts

/-- The callbacks that are not answered yet. -/
def Batch.callbacks : Batch → List OutboxCallback
  | .sending _ callback callbacks => callback :: callbacks
  | .commit _ => []

section Batches
variable {text : PythonText} {settings : OutboxSettings} {s : Sender} {batch : Batch} {attempts : List Attempt}
  {callbacks : List OutboxCallback}

theorem sendNext_outbox : (sendNext text s attempts callbacks).1.outbox = s.outbox := by
  cases callbacks with
  | nil => rfl
  | cons callback callbacks =>
    simp only [sendNext]
    split <;> rfl

theorem sendNext_batch (h : (sendNext text s attempts callbacks).2 = some batch) :
    batch.attempts = attempts ∧ batch.callbacks = callbacks := by
  cases callbacks with
  | nil =>
    cases h
    exact ⟨rfl, rfl⟩
  | cons callback callbacks =>
    simp only [sendNext] at h
    split at h <;> cases h
    exact ⟨rfl, rfl⟩

theorem startSender_outbox (now : DateTime) : (startSender text (.sendPendingCallbacks now) s).1.outbox = s.outbox := by
  simp only [startSender]
  split
  · rfl
  · exact sendNext_outbox

/-- A batch starts with callbacks that are due. -/
theorem startSender_batch {now : DateTime} (h : (startSender text (.sendPendingCallbacks now) s).2 = some batch) :
    batch.attempts = [] ∧ batch.callbacks = dueCallbacks now s.outbox := by
  simp only [startSender] at h
  split at h
  · cases h
  · exact sendNext_batch h

inductive SenderResumed (text : PythonText) (settings : OutboxSettings) (batch : Batch) (answer : SenderAnswer)
    (s : Sender) (r : Sender × Option Batch) : Prop where
  | committed (attempts : List Attempt) (hbatch : batch = .commit attempts) (hanswer : answer = .database true)
      (hr : r = ({ s with outbox := attempts.foldl Attempt.write s.outbox }, none))
  | answered (attempts : List Attempt) (callback changed : OutboxCallback) (callbacks : List OutboxCallback)
      (hbatch : batch = .sending attempts callback callbacks)
      (hsend : afterSend settings (countAttempt callback) answer = some changed)
      (hr : r = sendNext text s (attempts ++ [⟨callback, changed⟩]) callbacks)
  | waits (attempts : List Attempt) (hbatch : batch = .commit attempts) (hr : r = (s, some batch))
  | notCommitted (attempts : List Attempt) (hbatch : batch = .commit attempts) (hanswer : answer = .database false)
      (hr : r = (s, none))
  | raised (attempts : List Attempt) (callback : OutboxCallback) (callbacks : List OutboxCallback)
      (hbatch : batch = .sending attempts callback callbacks)
      (hsend : afterSend settings (countAttempt callback) answer = none) (hr : r = (s, none))

theorem resumeSender_resumed (batch : Batch) (answer : SenderAnswer) (s : Sender) :
    SenderResumed text settings batch answer s (resumeSender text settings batch answer s) := by
  cases batch with
  | sending attempts callback callbacks =>
    simp only [resumeSender]
    cases hsend : afterSend settings (countAttempt callback) answer with
    | none => exact .raised attempts callback callbacks rfl hsend rfl
    | some changed => exact .answered attempts callback changed callbacks rfl hsend rfl
  | commit attempts =>
    cases answer with
    | response | networkError | raised => exact .waits attempts rfl rfl
    | database reached =>
      cases reached with
      | false => exact .notCommitted attempts rfl rfl rfl
      | true => exact .committed attempts rfl rfl rfl

end Batches

/-! ### Writing back -/

section WriteBack
variable {settings : OutboxSettings} {rows : List OutboxCallback} {row callback changed : OutboxCallback}
  {attempts : List Attempt}

/-- What is the same for rows that differ in the columns of an attempt only is the same after the attempts are written. -/
theorem map_writeAll {β : Type} {f : OutboxCallback → β}
    (hf : ∀ (row : OutboxCallback) status attemptCount nextAttemptAt lastError,
      f { row with status, attemptCount, nextAttemptAt, lastError } = f row)
    (attempts : List Attempt) (rows : List OutboxCallback) :
    (attempts.foldl Attempt.write rows).map f = rows.map f := by
  induction attempts generalizing rows with
  | nil => rfl
  | cons attempt attempts ih =>
    refine (ih _).trans ?_
    unfold Attempt.write Table.modify
    rw [List.map_map]
    refine List.map_congr_left fun row _ => ?_
    simp only [Function.comp]
    split
    · exact hf row _ _ _ _
    · rfl

theorem map_eventId_writeAll (attempts : List Attempt) (rows : List OutboxCallback) :
    (attempts.foldl Attempt.write rows).map OutboxCallback.eventId = rows.map OutboxCallback.eventId :=
  map_writeAll (fun _ _ _ _ _ => rfl) attempts rows

theorem map_payloadJson_writeAll (attempts : List Attempt) (rows : List OutboxCallback) :
    (attempts.foldl Attempt.write rows).map OutboxCallback.payloadJson = rows.map OutboxCallback.payloadJson :=
  map_writeAll (fun _ _ _ _ _ => rfl) attempts rows

theorem keyed_writeAll (h : Table.Keyed OutboxCallback.eventId rows) :
    Table.Keyed OutboxCallback.eventId (attempts.foldl Attempt.write rows) := by
  unfold Table.Keyed
  rwa [map_eventId_writeAll]

/-- The rows are the same but for the columns of an attempt. -/
theorem map_content_writeAll (attempts : List Attempt) (rows : List OutboxCallback) :
    (attempts.foldl Attempt.write rows).map (fun row => (row.eventId, row.payloadJson)) =
      rows.map fun row => (row.eventId, row.payloadJson) :=
  map_writeAll (fun _ _ _ _ _ => rfl) attempts rows

theorem mem_writeAll (h : row ∈ attempts.foldl Attempt.write rows) :
    ∃ stored ∈ rows, stored.eventId = row.eventId ∧ stored.payloadJson = row.payloadJson := by
  have hmem := List.mem_map_of_mem (f := fun row : OutboxCallback => (row.eventId, row.payloadJson)) h
  rw [map_content_writeAll] at hmem
  simpa using hmem

theorem writeAll_mem (attempts : List Attempt) (h : row ∈ rows) :
    ∃ stored ∈ attempts.foldl Attempt.write rows, stored.eventId = row.eventId ∧ stored.payloadJson = row.payloadJson := by
  have hmem := List.mem_map_of_mem (f := fun row : OutboxCallback => (row.eventId, row.payloadJson)) h
  rw [← map_content_writeAll attempts] at hmem
  simpa using hmem

theorem writeAll_append (h : ∀ attempt ∈ attempts, attempt.loaded.eventId ≠ row.eventId) :
    attempts.foldl Attempt.write (rows ++ [row]) = attempts.foldl Attempt.write rows ++ [row] := by
  induction attempts generalizing rows with
  | nil => rfl
  | cons attempt attempts ih =>
    have hrow : attempt.write [row] = [row] :=
      congrArg (· :: []) (if_neg (Ne.symm (h attempt List.mem_cons_self)))
    have hwrite : attempt.write (rows ++ [row]) = attempt.write rows ++ [row] :=
      Table.modify_append.trans (congrArg _ hrow)
    simp only [List.foldl_cons, hwrite]
    exact ih fun a ha => h a (List.mem_cons_of_mem _ ha)

/-- What a request and its answer make of a callback that was pending. -/
structure Attempted (settings : OutboxSettings) (callback changed : OutboxCallback) : Prop where
  row : changed = { callback with
    status := changed.status
    attemptCount := callback.attemptCount + 1
    nextAttemptAt := changed.nextAttemptAt
    lastError := changed.lastError }
  retried : changed.status = .pending → changed.attemptCount < settings.callbackMaxAttempts

theorem scheduleRetry_attempted (error : String) (now : DateTime) :
    Attempted settings callback (scheduleRetry settings (countAttempt callback) error now) := by
  unfold scheduleRetry
  split
  · exact ⟨rfl, nofun⟩
  · next hless => exact ⟨rfl, fun _ => Nat.not_le.mp hless⟩

theorem afterSend_attempted {answer : SenderAnswer} (h : afterSend settings (countAttempt callback) answer = some changed) :
    Attempted settings callback changed := by
  cases answer with
  | response statusCode text now =>
    cases h
    split
    · exact ⟨rfl, nofun⟩
    · exact scheduleRetry_attempted _ now
  | networkError message now =>
    cases h
    exact scheduleRetry_attempted message now
  | raised | database reached => cases h

/-- Written back to the very row it was loaded from, a copy takes the place of the row. -/
theorem write_loaded (hkeyed : Table.Keyed OutboxCallback.eventId rows) (hmem : callback ∈ rows)
    (h : Attempted settings callback changed) :
    Attempt.write rows ⟨callback, changed⟩ =
      Table.modify OutboxCallback.eventId callback.eventId (fun _ => changed) rows := by
  refine List.map_congr_left fun stored hstored => ?_
  by_cases hid : stored.eventId = callback.eventId
  · obtain rfl := hkeyed.eq_of_key hstored hmem hid
    rw [if_pos rfl, if_pos rfl, h.row]
    simp
  · rw [if_neg hid, if_neg hid]

end WriteBack

/-! ### What a delivery says -/

section Deliveries
variable {text : PythonText} {settings : OutboxSettings} {s s' : Sender} {callback : OutboxCallback}
  {callbacks : List OutboxCallback} {attempts : List Attempt}

/-- The row that a copy was loaded from is there, with the copy's payload. -/
def Stored (s : Sender) (callback : OutboxCallback) : Prop :=
  ∃ row ∈ s.outbox, row.eventId = callback.eventId ∧ row.payloadJson = callback.payloadJson

/-- Each request carries the event and the payload of a row. -/
structure Sender.Faithful (text : PythonText) (s : Sender) : Prop where
  keyed : Table.Keyed OutboxCallback.eventId s.outbox
  sent : ∀ delivery ∈ s.sent, ∃ row ∈ s.outbox, deliveryOf text row = .ok delivery

def Batch.Loaded (s : Sender) : Batch → Prop
  | .sending _ callback callbacks => ∀ c ∈ callback :: callbacks, Stored s c
  | .commit _ => True

/-- Rows stay, with their events and payloads. -/
def Extends (s s' : Sender) : Prop :=
  ∀ row ∈ s.outbox, ∃ row' ∈ s'.outbox, row'.eventId = row.eventId ∧ row'.payloadJson = row.payloadJson

theorem deliveryOf_congr {row : OutboxCallback} (hid : row.eventId = callback.eventId)
    (hpayload : row.payloadJson = callback.payloadJson) : deliveryOf text row = deliveryOf text callback := by
  unfold deliveryOf
  rw [hid, hpayload]

theorem eventId_of_deliveryOf {delivery : Delivery} (h : deliveryOf text callback = .ok delivery) :
    delivery.eventId = callback.eventId := by
  obtain ⟨payload, -, h⟩ := bind_eq_ok.mp h
  rw [← pure_eq_ok.mp h]

theorem Extends.refl (s : Sender) : Extends s s := fun row hrow => ⟨row, hrow, rfl, rfl⟩

theorem Extends.trans {s'' : Sender} (h : Extends s s') (h' : Extends s' s'') : Extends s s'' := by
  intro row hrow
  obtain ⟨row', hrow', hid, hpayload⟩ := h row hrow
  obtain ⟨row'', hrow'', hid', hpayload'⟩ := h' row' hrow'
  exact ⟨row'', hrow'', hid'.trans hid, hpayload'.trans hpayload⟩

theorem Stored.of_extends (h : Extends s s') (hstored : Stored s callback) : Stored s' callback := by
  obtain ⟨row, hrow, hid, hpayload⟩ := hstored
  obtain ⟨row', hrow', hid', hpayload'⟩ := h row hrow
  exact ⟨row', hrow', hid'.trans hid, hpayload'.trans hpayload⟩

theorem Sender.Faithful.of_extends (hS : s.Faithful text) (h : Extends s s')
    (hkeyed : Table.Keyed OutboxCallback.eventId s'.outbox) (hsent : s'.sent = s.sent) : s'.Faithful text where
  keyed := hkeyed
  sent delivery hdelivery := by
    obtain ⟨row, hrow, hof⟩ := hS.sent delivery (hsent ▸ hdelivery)
    obtain ⟨row', hrow', hid, hpayload⟩ := h row hrow
    exact ⟨row', hrow', (deliveryOf_congr hid hpayload).trans hof⟩

/-- What holds after a step: the requests are faithful, the rows are still there, and the batch is one of copies. -/
def Kept (text : PythonText) (s : Sender) (r : Sender × Option Batch) : Prop :=
  r.1.Faithful text ∧ Extends s r.1 ∧ ∀ batch ∈ r.2, batch.Loaded r.1

theorem Kept.over (hS : s.Faithful text) : Kept text s (s, none) :=
  ⟨hS, .refl s, fun _ h => absurd h (Option.not_mem_none _)⟩

theorem sendNext_kept (hS : s.Faithful text) (hstored : ∀ c ∈ callbacks, Stored s c) :
    Kept text s (sendNext text s attempts callbacks) := by
  cases callbacks with
  | nil => exact ⟨hS, .refl s, fun batch h => by cases h; trivial⟩
  | cons callback callbacks =>
    cases hof : deliveryOf text callback with
    | error e =>
      simp only [sendNext, hof]
      exact .over hS
    | ok delivery =>
      simp only [sendNext, hof]
      refine ⟨⟨hS.keyed, fun d hd => ?_⟩, fun row hrow => ⟨row, hrow, rfl, rfl⟩, fun batch h => ?_⟩
      · rcases List.mem_append.mp hd with hd | hd
        · exact hS.sent d hd
        · obtain ⟨row, hrow, hid, hpayload⟩ := hstored callback List.mem_cons_self
          rw [List.mem_singleton.mp hd]
          exact ⟨row, hrow, (deliveryOf_congr hid hpayload).trans hof⟩
      · cases h
        exact hstored

theorem startSender_kept (hS : s.Faithful text) (request : SenderRequest) : Kept text s (startSender text request s) := by
  cases request with
  | enqueue callback =>
    simp only [startSender]
    split
    · exact .over hS
    · next hnew =>
      have hextends : Extends s { s with outbox := s.outbox ++ [callback] } := fun row hrow =>
        ⟨row, List.mem_append_left _ hrow, rfl, rfl⟩
      have hkeyed := hS.keyed.append (Table.find_eq_none.mp (Option.not_isSome_iff_eq_none.mp hnew))
      exact ⟨hS.of_extends hextends hkeyed rfl, hextends, fun _ h => absurd h (Option.not_mem_none _)⟩
  | sendPendingCallbacks now =>
    simp only [startSender]
    split
    · exact .over hS
    · next callbacks _ =>
      refine sendNext_kept hS fun c hc => ⟨c, ?_, rfl, rfl⟩
      exact (Rounds.mem_of_mem_first hc).1

theorem resumeSender_kept (hS : s.Faithful text) {batch : Batch} (hloaded : batch.Loaded s) (answer : SenderAnswer) :
    Kept text s (resumeSender text settings batch answer s) := by
  have hresumed : SenderResumed text settings batch answer s _ := resumeSender_resumed batch answer s
  rcases hresumed with ⟨attempts, -, -, hr⟩ | ⟨attempts, callback, changed, callbacks, rfl, -, hr⟩ | ⟨-, -, hr⟩ |
    ⟨-, -, -, hr⟩ | ⟨-, -, -, -, -, hr⟩
  · rw [hr]
    have hextends : Extends s { s with outbox := attempts.foldl Attempt.write s.outbox } := fun row hrow =>
      writeAll_mem attempts hrow
    exact ⟨hS.of_extends hextends (keyed_writeAll hS.keyed) rfl, hextends, fun _ h => absurd h (Option.not_mem_none _)⟩
  · rw [hr]
    exact sendNext_kept hS fun c hc => hloaded c (List.mem_cons_of_mem _ hc)
  · rw [hr]
    exact ⟨hS, .refl s, fun _ h => Option.mem_some.mp h ▸ hloaded⟩
  · rw [hr]
    exact .over hS
  · rw [hr]
    exact .over hS

theorem outboxOutline : Outline (outboxWorkers text settings) (fun _ _ => True) (fun _ _ _ => True)
    (Sender.Faithful text) Batch.Loaded Extends where
  start request _ hS _ := startSender_kept hS request
  resume _ answer _ hS hloaded _ := resumeSender_kept hS hloaded answer
  stable s s' batch h hloaded := by
    cases batch with
    | sending attempts callback callbacks => exact fun c hc => (hloaded c hc).of_extends h
    | commit attempts => trivial

/-- Two requests for one event are the same request. -/
theorem Sender.Faithful.eq_of_eventId (hS : s.Faithful text) {d d' : Delivery} (hd : d ∈ s.sent) (hd' : d' ∈ s.sent)
    (hid : d.eventId = d'.eventId) : d = d' := by
  obtain ⟨row, hrow, hof⟩ := hS.sent d hd
  obtain ⟨row', hrow', hof'⟩ := hS.sent d' hd'
  have hrows : row.eventId = row'.eventId :=
    (eventId_of_deliveryOf hof).symm.trans (hid.trans (eventId_of_deliveryOf hof'))
  obtain rfl := hS.keyed.eq_of_key hrow hrow' hrows
  exact Except.ok.inj (hof.symm.trans hof')

end Deliveries
end CredBridge.PixService
