import CredBridge.Api.PixSignature
import CredBridge.Lib.Json

/-! # The endpoint of the Pix callbacks

A request to `POST /v1/pix/webhooks/orders` passes the framework first, which may turn it away and which
keeps the raw body only when the application was created with that option. The controller then checks the
signature if there is a secret and a raw body, and hands the parsed body to one of two handlers. -/

namespace CredBridge.Api
open Result

structure HttpRequest where
  headers : String → Option String
  body : List UInt8

structure NestApplicationOptions where
  rawBody : Bool := false

def bootstrapOptions : NestApplicationOptions := {}

/-- What the framework makes of a request before the controller: it turns it away (the throttler, the body
    parser), or hands it on with the parsed body, which is undefined when no parser took it. -/
structure Framework where
  receive : HttpRequest → Option (Option Json)

def rawBody? (options : NestApplicationOptions) (req : HttpRequest) : Option (List UInt8) :=
  if options.rawBody then some req.body else none

structure PixConfig where
  pixWebhookSecret : String
  pixWebhookMaxSkewSeconds : Option Rat

inductive PixCallback where
  | processCollectionCallback (dto : Json)
  | processPixOrderCallback (dto : Json)

inductive WebhookError where
  | unauthorized (message : String)
  | runtime (error : RuntimeError)
deriving DecidableEq, Repr

section Controller
variable (crypto : Crypto) (config : PixConfig) (nowMillis : Int)

/-- The check in front of the handlers: it is made only with a secret and a raw body. -/
def checkSignature (req : HttpRequest) (rawBody : Option (List UInt8)) : Except WebhookError Unit :=
  match rawBody with
  | none => pure ()
  | some rawBody =>
    if config.pixWebhookSecret = "" then
      pure ()
    else
      match verifyPixCallbackSignature crypto nowMillis rawBody (req.headers "x-credbridge-pix-signature")
        (req.headers "x-credbridge-pix-timestamp") config.pixWebhookSecret config.pixWebhookMaxSkewSeconds with
      | .error e => .error (.runtime e)
      | .ok isValid => throwIf (isValid = false) (.unauthorized "Assinatura do webhook Pix inválida")

/-- Which handler takes the body: reading a property of an undefined body is an error. -/
def dispatch (body : Option Json) : Except WebhookError PixCallback := do
  let body ← orThrow body (.runtime .typeError)
  if ((body.field? "type").map (Json.isString "COLLECTION")).getD false then
    pure (.processCollectionCallback body)
  else
    pure (.processPixOrderCallback body)

def receivePixWebhook (req : HttpRequest) (rawBody : Option (List UInt8)) (body : Option Json) :
    Except WebhookError PixCallback := do
  checkSignature crypto config nowMillis req rawBody
  dispatch body

def invoked (framework : Framework) (options : NestApplicationOptions) (req : HttpRequest) : Option PixCallback :=
  match framework.receive req with
  | none => none
  | some body => (receivePixWebhook crypto config nowMillis req (rawBody? options req) body).toOption

/-- The verifier accepts the signature and timestamp headers of the request over its raw body. -/
def Accepted (req : HttpRequest) : Prop :=
  verifyPixCallbackSignature crypto nowMillis req.body (req.headers "x-credbridge-pix-signature")
    (req.headers "x-credbridge-pix-timestamp") config.pixWebhookSecret config.pixWebhookMaxSkewSeconds = .ok true

end Controller
end CredBridge.Api
