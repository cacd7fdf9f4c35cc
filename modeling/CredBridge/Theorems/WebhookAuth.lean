import Mathlib
import CredBridge.Api.PixWebhook

/-! # Authentication of the Pix callbacks

The controller skips the check when the request has no raw body, and the application is created without the
option that keeps it. So every request that arrives with a body invokes a handler, signed or not; with the
option, only accepted requests would. -/

namespace CredBridge.Api
open Result

section Controller
variable {crypto : Crypto} {config : PixConfig} {nowMillis : Int} {framework : Framework} {req : HttpRequest}

theorem rawBody?_bootstrap : rawBody? bootstrapOptions req = none := rfl

theorem checkSignature_without_rawBody : checkSignature crypto config nowMillis req none = .ok () := rfl

theorem checkSignature_eq_ok (hsecret : config.pixWebhookSecret ≠ "") :
    checkSignature crypto config nowMillis req (some req.body) = .ok () ↔ Accepted crypto config nowMillis req := by
  unfold checkSignature Accepted
  simp only [if_neg hsecret]
  split
  · next h => rw [h]; exact ⟨nofun, nofun⟩
  · next valid h =>
    rw [h, throwIf_eq_ok, Bool.not_eq_false]
    exact ⟨fun hv => hv ▸ rfl, fun hv => Except.ok.inj hv⟩

theorem dispatch_of_some (body : Json) : ∃ callback, dispatch (some body) = .ok callback := by
  unfold dispatch orThrow
  simp only [bind, Except.bind]
  split
  · exact ⟨_, rfl⟩
  · exact ⟨_, rfl⟩

/-- The request reaches the controller with a body. -/
def Framework.DeliversBody (framework : Framework) (req : HttpRequest) : Prop :=
  ∃ body, framework.receive req = some (some body)

theorem invoked_isSome {options : NestApplicationOptions} :
    (invoked crypto config nowMillis framework options req).isSome ↔
      framework.DeliversBody req ∧ checkSignature crypto config nowMillis req (rawBody? options req) = .ok () := by
  unfold invoked Framework.DeliversBody
  cases framework.receive req with
  | none =>
    constructor
    · exact nofun
    · rintro ⟨⟨_, h⟩, -⟩
      cases h
  | some body =>
    rw [toOption_isSome]
    unfold receivePixWebhook
    cases body with
    | none =>
      constructor
      · rintro ⟨_, h⟩
        obtain ⟨_, -, h⟩ := bind_eq_ok.mp h
        cases h
      · rintro ⟨⟨_, h⟩, -⟩
        cases h
    | some body =>
      constructor
      · rintro ⟨_, h⟩
        obtain ⟨_, hcheck, -⟩ := bind_eq_ok.mp h
        exact ⟨⟨body, rfl⟩, hcheck⟩
      · rintro ⟨-, hcheck⟩
        obtain ⟨callback, hdispatch⟩ := dispatch_of_some body
        exact ⟨callback, bind_eq_ok.mpr ⟨(), hcheck, hdispatch⟩⟩

end Controller

/-- A handler is invoked only for an accepted request. -/
def OnlyAuthenticated (crypto : Crypto) (config : PixConfig) (nowMillis : Int) (framework : Framework)
    (options : NestApplicationOptions) (req : HttpRequest) : Prop :=
  (invoked crypto config nowMillis framework options req).isSome → Accepted crypto config nowMillis req

/-- As bootstrapped, the application invokes a handler only for an accepted request exactly if the request is
    accepted or does not arrive with a body; created with the raw body, it would for every request. -/
theorem only_authenticated_iff (crypto : Crypto) (config : PixConfig) (hsecret : config.pixWebhookSecret ≠ "")
    (nowMillis : Int) (framework : Framework) (req : HttpRequest) :
    (OnlyAuthenticated crypto config nowMillis framework bootstrapOptions req ↔
      ¬framework.DeliversBody req ∨ Accepted crypto config nowMillis req) ∧
    OnlyAuthenticated crypto config nowMillis framework { rawBody := true } req := by
  constructor
  · unfold OnlyAuthenticated
    rw [invoked_isSome, rawBody?_bootstrap, checkSignature_without_rawBody, and_iff_left rfl]
    exact imp_iff_not_or
  · intro h
    exact (checkSignature_eq_ok hsecret).mp (invoked_isSome.mp h).2

section Runs

def parsesEmptyObject : Framework := ⟨fun req => if req.body = Utf.encode "\x7b\x7d" then some (some (.object [])) else none⟩

def webhookConfig : PixConfig := ⟨"pix-webhook-secret", some 300⟩

def webhookRequest (signature : Option String) : HttpRequest where
  headers name :=
    if name = "x-credbridge-pix-signature" then signature
    else if name = "x-credbridge-pix-timestamp" then some "1000"
    else none
  body := Utf.encode "\x7b\x7d"

def webhookDigest : String := "9e6653c9ddcab43cba5ffb3375b18c7450156b7fea9683ae9155685fa23d796f"

def webhookCrypto : Crypto := ⟨fun _ _ => webhookDigest⟩

theorem only_authenticated_iff_signed :
    OnlyAuthenticated webhookCrypto webhookConfig 1000000 parsesEmptyObject bootstrapOptions
      (webhookRequest (some ("sha256=" ++ webhookDigest))) :=
  ((only_authenticated_iff webhookCrypto webhookConfig (by decide) 1000000 parsesEmptyObject
    (webhookRequest (some ("sha256=" ++ webhookDigest)))).1).mpr (.inr (by rfl))

theorem unsigned_callback_invoked :
    ¬OnlyAuthenticated webhookCrypto webhookConfig 1000000 parsesEmptyObject bootstrapOptions (webhookRequest none) :=
  fun h => nomatch h rfl

end Runs
end CredBridge.Api
