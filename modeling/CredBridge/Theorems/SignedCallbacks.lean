import Mathlib
import CredBridge.PixService.Signatures
import CredBridge.Theorems.CallbackOnce
import CredBridge.Theorems.WebhookAuth

/-! # Callbacks signed by the one service and verified by the other

The outbox signs the text of the time and the dumped payload, and sends the dump's bytes; the API reads the bytes back
into text before it signs them itself. Text survives that, the time it parses is the time that was written, and so the
two signatures are of one message, whatever the payload. Nothing is asked of the keyed hash. -/

namespace CredBridge.Api
open Concurrent Machine Result

open PixService (Sender Batch SenderRequest SenderAnswer OutboxCallback OutboxSettings PythonText CallbackRequest
  callbackRequest callbackRequest_eq_ok exists_callbackRequest callbackRequest_of_delivery outboxWorkers outboxOutline
  ensureCamelCaseKeys)

section ParseInt

theorem digitsValue_toDigits (n : Nat) : digitsValue (Nat.toDigits 10 n) = n := by
  have hfold := Nat.ofDigitChars_ten_toDigits (n := n)
  rw [Nat.ofDigitChars_eq_foldl] at hfold
  simpa only [digitsValue, Nat.mul_comm 10] using hfold

theorem isDigit_bounds {c : Char} (h : c.isDigit = true) : 48 ≤ c.toNat ∧ c.toNat ≤ 57 := by
  simpa [Char.isDigit, UInt32.le_iff_toNat_le] using h

theorem not_isSpace_of_isDigit {c : Char} (h : c.isDigit = true) : isSpace c = false := by
  have hbounds := isDigit_bounds h
  simp only [isSpace, Bool.or_eq_false_iff, decide_eq_false_iff_not, List.mem_cons, List.not_mem_nil, or_false, not_or]
  omega

/-- Digits are read to their end, and nothing in front of them is a blank or a sign. -/
theorem parseInt_digits (n : Nat) :
    (Nat.toDigits 10 n).dropWhile isSpace = Nat.toDigits 10 n ∧
      (Nat.toDigits 10 n).takeWhile Char.isDigit = Nat.toDigits 10 n ∧
      (Nat.toDigits 10 n).head? ≠ some '-' ∧ (Nat.toDigits 10 n).head? ≠ some '+' ∧
      (Nat.toDigits 10 n).isEmpty = false := by
  have hdigits : ∀ c ∈ Nat.toDigits 10 n, c.isDigit = true := fun _ hc =>
    Nat.isDigit_of_mem_toDigits (by decide) (by decide) hc
  have hnonempty : Nat.toDigits 10 n ≠ [] := Nat.toDigits_ne_nil
  generalize Nat.toDigits 10 n = digits at *
  refine ⟨?_, List.takeWhile_eq_self_iff.mpr hdigits, ?_⟩
  · cases digits with
    | nil => rfl
    | cons c digits =>
      rw [List.dropWhile_cons_of_neg]
      simp [not_isSpace_of_isDigit (hdigits c List.mem_cons_self)]
  · cases digits with
    | nil => exact absurd rfl hnonempty
    | cons c digits =>
      have hbounds := isDigit_bounds (hdigits c List.mem_cons_self)
      refine ⟨?_, ?_, rfl⟩
      · rintro h
        cases Option.some.inj h
        exact absurd hbounds.1 (by decide)
      · rintro h
        cases Option.some.inj h
        exact absurd hbounds.1 (by decide)

/-- The text of a whole number is read back as the number. -/
theorem parseInt_toString (t : Int) : parseInt (toString t) = some t := by
  cases t with
  | ofNat n =>
    obtain ⟨hblank, hread, hminus, hplus, hempty⟩ := parseInt_digits n
    have htext : (toString (Int.ofNat n)).toList = Nat.toDigits 10 n := Nat.toList_repr
    unfold parseInt
    rw [htext]
    simp only [hblank, hminus, hplus, or_self, if_false, hread, hempty, Bool.false_eq_true, digitsValue_toDigits]
    rfl
  | negSucc n =>
    obtain ⟨-, hread, -, -, hempty⟩ := parseInt_digits (n + 1)
    have htext : (toString (Int.negSucc n)).toList = '-' :: Nat.toDigits 10 (n + 1) := by
      show ("-" ++ Nat.repr (n + 1)).toList = _
      rw [String.toList_append, Nat.toList_repr]
      rfl
    have hblank : ∀ digits, ('-' :: digits).dropWhile isSpace = '-' :: digits := fun digits =>
      List.dropWhile_cons_of_neg (by decide)
    unfold parseInt
    rw [htext]
    simp only [hblank, List.head?_cons, true_or, if_true, List.tail_cons, hread, hempty, Bool.false_eq_true, if_false,
      digitsValue_toDigits]
    rfl

end ParseInt

section Verify
variable {crypto : Crypto} {text : PythonText} {secret : String} {t nowMillis : Int} {callback : OutboxCallback}
  {request : CallbackRequest} {maxSkewSeconds : Rat}

theorem timingSafeEqual_self (s : String) : timingSafeEqual s s = .ok true := by
  unfold timingSafeEqual
  rw [throwIf_bind_eq_ok]
  exact ⟨not_not_intro rfl, by rw [decide_eq_true rfl]; rfl⟩

/-- A signed request verifies as long as its time is close enough. -/
theorem verify_signed {timestamp : String} {body : String} (htime : parseInt timestamp = some t) :
    verifyPixCallbackSignature crypto nowMillis (Utf.encode body)
      (some ("sha256=" ++ crypto.hmacSha256Hex (Utf.encode secret) (Utf.encode (timestamp ++ "." ++ body))))
      (some timestamp) secret (some maxSkewSeconds) =
        .ok (decide ((↑(nowMillis / 1000 - t).natAbs : Rat) ≤ maxSkewSeconds)) := by
  have hheader : isFalsy (some ("sha256=" ++ crypto.hmacSha256Hex (Utf.encode secret)
      (Utf.encode (timestamp ++ "." ++ body)))) = false := by
    simp [isFalsy]
  have htimestamp := isFalsy_of_parseInt htime
  unfold verifyPixCallbackSignature
  simp only [hheader, htimestamp, Bool.or_self, Bool.false_eq_true, if_false, Option.getD_some, htime, isSkewed,
    Utf.decode_encode, ne_eq, not_true_eq_false, timingSafeEqual_self]
  by_cases hnear : (↑(nowMillis / 1000 - t).natAbs : Rat) ≤ maxSkewSeconds
  · rw [if_neg (by simpa using Rat.not_lt.mpr hnear), decide_eq_true hnear]
  · rw [if_pos (decide_eq_true (Rat.not_le.mp hnear)), decide_eq_false hnear]
    rfl

theorem callbackRequest_verifies
    (h : callbackRequest text crypto.hmacSha256Hex secret t callback = .ok request) (nowMillis : Int)
    (maxSkewSeconds : Rat) :
    verifyPixCallbackSignature crypto nowMillis request.content (some request.headers.signature)
      (some request.headers.timestamp) secret (some maxSkewSeconds) =
        .ok (decide ((↑(nowMillis / 1000 - t).natAbs : Rat) ≤ maxSkewSeconds)) := by
  obtain ⟨payload, -, rfl⟩ := callbackRequest_eq_ok.mp h
  exact verify_signed (parseInt_toString t)

end Verify

/-- Any request that the outbox builds for a row, at whatever attempt, is accepted exactly if it is verified within the
    tolerance of the time it was built; each row with an object gets one; and what a run of the workers sends is the
    request of a row. -/
theorem signed_callbacks_verify (text : PythonText) (settings : OutboxSettings) (crypto : Crypto) (secret : String) :
    (∀ callback t request, callbackRequest text crypto.hmacSha256Hex secret t callback = .ok request →
      ∀ nowMillis maxSkewSeconds, verifyPixCallbackSignature crypto nowMillis request.content
        (some request.headers.signature) (some request.headers.timestamp) secret (some maxSkewSeconds) =
          .ok (decide ((↑(nowMillis / 1000 - t).natAbs : Rat) ≤ maxSkewSeconds))) ∧
    (∀ (callback : OutboxCallback) fields t, callback.payloadJson = .object fields →
      ∃ request, callbackRequest text crypto.hmacSha256Hex secret t callback = .ok request) ∧
    ∀ ops, Throughout (outboxWorkers text settings).step
      (fun c => ∀ delivery ∈ c.shared.sent, ∃ row ∈ c.shared.outbox, ∀ t, ∃ request,
        callbackRequest text crypto.hmacSha256Hex secret t row = .ok request ∧
          request.headers.eventId = delivery.eventId ∧ request.content = Utf.encode delivery.body)
      ⟨⟨[], []⟩, []⟩ ops := by
  refine ⟨fun callback t request h => callbackRequest_verifies h, fun callback fields t h => exists_callbackRequest h,
    fun ops => ?_⟩
  have hstart : Holds (Sender.Faithful text) Batch.Loaded ⟨⟨[], []⟩, []⟩ :=
    ⟨⟨List.nodup_nil, List.forall_mem_nil _⟩, List.forall_mem_nil _⟩
  have hstep : ∀ c op c', Holds (Sender.Faithful text) Batch.Loaded c →
      (outboxWorkers text settings).step c op = .ok c' → Holds (Sender.Faithful text) Batch.Loaded c' :=
    fun c op c' hc h => outboxOutline.step hc (allows_all (fun _ _ => trivial) (fun _ _ _ => trivial) c op) h
  refine (throughout_of_step hstep hstart ops).mono fun c hc delivery hdelivery => ?_
  obtain ⟨row, hrow, hof⟩ := hc.1.sent delivery hdelivery
  exact ⟨row, hrow, fun t => callbackRequest_of_delivery hof⟩

section Examples

def dumpsPaid : PythonText := ⟨id, fun _ => paidBody⟩

/-- A retry, sent at the second 1000, is accepted until 1300 and not any more at 1301. -/
theorem signed_callbacks_verify_retry :
    ∃ request, callbackRequest dumpsPaid webhookCrypto.hmacSha256Hex "pix-webhook-secret" 1000
        { paidRow with attemptCount := 3, lastError := some "HTTP 500: " } = .ok request ∧
      verifyPixCallbackSignature webhookCrypto 1300999 request.content (some request.headers.signature)
        (some request.headers.timestamp) "pix-webhook-secret" (some 300) = .ok true ∧
      verifyPixCallbackSignature webhookCrypto 1301000 request.content (some request.headers.signature)
        (some request.headers.timestamp) "pix-webhook-secret" (some 300) = .ok false := by
  have hverify := signed_callbacks_verify dumpsPaid ⟨5, 30⟩ webhookCrypto "pix-webhook-secret"
  obtain ⟨request, h⟩ := hverify.2.1 { paidRow with attemptCount := 3, lastError := some "HTTP 500: " } _ 1000 rfl
  refine ⟨request, h, ?_, ?_⟩
  · rw [hverify.1 _ 1000 request h 1300999 300]
    rfl
  · rw [hverify.1 _ 1000 request h 1301000 300]
    rfl

end Examples
end CredBridge.Api
