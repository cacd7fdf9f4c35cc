import CredBridge.PixService.Outbox
import CredBridge.Lib.Utf

/-! # The signed requests of the outbox

Each attempt to send a callback dumps its payload twice, once for the signature and once for the body, and signs the
dump with the time of the attempt. The keyed hash is a parameter. -/

namespace CredBridge.PixService
open Result

structure CallbackHeaders where
  timestamp : String
  signature : String
  eventId : String
  contentType : String
deriving DecidableEq

structure CallbackRequest where
  targetUrl : String
  content : List UInt8
  headers : CallbackHeaders

section Signing
variable (text : PythonText) (hmacSha256Hex : (key message : List UInt8) → String)

/-- `seconds` is the whole part of the clock. -/
def buildCallbackHeaders (seconds : Int) (payload : Json) (eventId secret : String) : CallbackHeaders :=
  let timestamp := toString seconds
  let bodyJson := text.dumps payload
  let message := Utf.encode (timestamp ++ "." ++ bodyJson)
  let signatureHex := hmacSha256Hex (Utf.encode secret) message
  { timestamp, signature := "sha256=" ++ signatureHex, eventId, contentType := "application/json" }

/-- The request of `_attempt_send`. -/
def callbackRequest (secret : String) (seconds : Int) (callback : OutboxCallback) : Except PyError CallbackRequest := do
  let payload ← ensureCamelCaseKeys text callback.payloadJson
  let headers := buildCallbackHeaders text hmacSha256Hex seconds payload callback.eventId secret
  let bodyJson := text.dumps payload
  pure { targetUrl := callback.targetUrl, content := Utf.encode bodyJson, headers }

end Signing

section Requests
variable {text : PythonText} {hmacSha256Hex : (key message : List UInt8) → String} {secret : String} {seconds : Int}
  {callback : OutboxCallback} {request : CallbackRequest} {delivery : Delivery}

theorem callbackRequest_eq_ok : callbackRequest text hmacSha256Hex secret seconds callback = .ok request ↔
    ∃ payload, ensureCamelCaseKeys text callback.payloadJson = .ok payload ∧
      request = ⟨callback.targetUrl, Utf.encode (text.dumps payload),
        buildCallbackHeaders text hmacSha256Hex seconds payload callback.eventId secret⟩ := by
  unfold callbackRequest
  rw [bind_eq_ok]
  exact exists_congr fun payload => and_congr_right fun _ => pure_eq_ok.trans eq_comm

theorem exists_callbackRequest {fields : List (String × Json)} (hpayload : callback.payloadJson = .object fields) :
    ∃ request, callbackRequest text hmacSha256Hex secret seconds callback = .ok request := by
  obtain ⟨payload, hcamel⟩ : ∃ payload, ensureCamelCaseKeys text callback.payloadJson = .ok payload := by
    unfold ensureCamelCaseKeys
    rw [hpayload]
    split
    · exact ⟨_, rfl⟩
    · exact ⟨_, rfl⟩
  exact ⟨_, callbackRequest_eq_ok.mpr ⟨payload, hcamel, rfl⟩⟩

/-- The request is that of the delivery, signed. -/
theorem callbackRequest_of_delivery (h : deliveryOf text callback = .ok delivery) :
    ∃ request, callbackRequest text hmacSha256Hex secret seconds callback = .ok request ∧
      request.headers.eventId = delivery.eventId ∧ request.content = Utf.encode delivery.body := by
  obtain ⟨payload, hcamel, hdelivery⟩ := bind_eq_ok.mp h
  cases pure_eq_ok.mp hdelivery
  exact ⟨_, callbackRequest_eq_ok.mpr ⟨payload, hcamel, rfl⟩, rfl, rfl⟩

end Requests
end CredBridge.PixService
