import CredBridge.Api.PixSignature
import CredBridge.PixService.Hmac

/-! # When the signature checks are total and exact

Both checks end in a comparison that raises: the service's for a text that is not in ASCII, and the API's for texts of
equal length in UTF-16 units and unequal length in bytes. The API also signs the text that it reads from the body, which
is the body itself only if that is UTF-8. -/

namespace CredBridge.PixService
open Result

/-- What the provider may send for a digest: base64, or hexadecimal digits of either case, with the prefix or without. -/
def Signs (digest : Vector UInt8 32) (sig : String) : Prop :=
  sig = base64Digest digest ∨ ∃ digits, lower digits = hexDigest digest ∧ (sig = digits ∨ sig = "sha256=" ++ digits)

/-- The service's check answers, and with the truth. -/
def CorpxExact (hmacSha256 : (key message : List UInt8) → Vector UInt8 32) (rawBody : List UInt8) (header secret : String) :
    Prop :=
  ∃ valid, verifyCorpxHmacSignature hmacSha256 rawBody (some header) secret = .ok valid ∧
    (valid = true ↔ Signs (hmacSha256 (Utf.encode secret) rawBody) (strip header))

section Corpx
variable {hmacSha256 : (key message : List UInt8) → Vector UInt8 32} {rawBody : List UInt8} {header secret : String}

theorem digest_ne_nil (digest : Vector UInt8 32) : digest.toList ≠ [] :=
  List.ne_nil_of_length_pos (by rw [Vector.length_toList]; decide)

theorem base64Digest_ascii (digest : Vector UInt8 32) : Utf.isAscii (base64Digest digest) = true := by
  rw [Utf.isAscii, base64Digest, String.toList_ofList, List.all_eq_true]
  exact fun c hc => decide_eq_true (Base64.encode_ascii _ c hc)

theorem hexDigest_ascii (digest : Vector UInt8 32) : Utf.isAscii (hexDigest digest) = true := by
  rw [Utf.isAscii, hexDigest, String.toList_ofList, List.all_eq_true]
  exact fun c hc => decide_eq_true (Hex.toNat_lt_of_isDigit (Hex.isDigit_of_mem_encode hc))

theorem compareDigest_of_ascii {a b : String} (ha : Utf.isAscii a = true) (hb : Utf.isAscii b = true) :
    compareDigest a b = .ok (decide (a = b)) := by
  unfold compareDigest
  rw [throwIf_bind_eq_ok]
  exact ⟨by simp [ha, hb], rfl⟩

theorem compareDigest_of_not_ascii {a b : String} (hb : Utf.isAscii b = false) : compareDigest a b = .error .typeError := by
  unfold compareDigest throwIf
  rw [hb, Bool.and_false, if_pos rfl]
  rfl

theorem withoutPrefix_append (expectedPrefix s : String) : withoutPrefix expectedPrefix (expectedPrefix ++ s) = s := by
  unfold withoutPrefix
  rw [String.toList_append, if_pos (List.isPrefixOf_iff_prefix.mpr ⟨_, rfl⟩), List.drop_left, String.ofList_toList]

theorem withoutPrefix_cases (expectedPrefix s : String) :
    s = expectedPrefix ++ withoutPrefix expectedPrefix s ∨ withoutPrefix expectedPrefix s = s := by
  unfold withoutPrefix
  split
  · next hprefix =>
    left
    obtain ⟨rest, hrest⟩ := List.isPrefixOf_iff_prefix.mp hprefix
    rw [← String.toList_inj, String.toList_append, String.toList_ofList, ← hrest, List.drop_left]
  · exact .inr rfl

theorem toLower_ascii {c : Char} (h : c.toNat < 128) : c.toLower.toNat < 128 := by
  generalize hn : c.toNat = n at h
  obtain rfl : c = Char.ofNat n := by rw [← hn, Char.ofNat_toNat]
  interval_cases n <;> decide

theorem lower_withoutPrefix_ascii {s : String} (h : Utf.isAscii s = true) (expectedPrefix : String) :
    Utf.isAscii (lower (withoutPrefix expectedPrefix s)) = true := by
  simp only [Utf.isAscii, List.all_eq_true, decide_eq_true_iff] at h ⊢
  intro c hc
  simp only [lower, String.toList_ofList, List.mem_map] at hc
  obtain ⟨d, hd, rfl⟩ := hc
  refine toLower_ascii (h d ?_)
  rcases withoutPrefix_cases expectedPrefix s with hcut | hsame
  · rw [hcut, String.toList_append]
    exact List.mem_append_right _ hd
  · rwa [hsame] at hd

/-- Digits never start like the prefix. -/
theorem withoutPrefix_digits {digest : Vector UInt8 32} {digits : String} (h : lower digits = hexDigest digest) :
    withoutPrefix "sha256=" digits = digits := by
  rcases withoutPrefix_cases "sha256=" digits with hcut | hsame
  · exfalso
    have hmem : 's' ∈ (hexDigest digest).toList := by
      rw [← h, hcut, lower, String.toList_ofList, String.toList_append]
      exact List.mem_cons_self
    rw [hexDigest, String.toList_ofList] at hmem
    cases Hex.isDigit_of_mem_encode hmem
  · exact hsame

theorem signs_iff (digest : Vector UInt8 32) (sig : String) :
    Signs digest sig ↔ sig = base64Digest digest ∨ lower (withoutPrefix "sha256=" sig) = hexDigest digest := by
  refine or_congr_right ⟨?_, fun h => ?_⟩
  · rintro ⟨digits, hdigits, rfl | rfl⟩
    · rw [withoutPrefix_digits hdigits, hdigits]
    · rw [withoutPrefix_append, hdigits]
  · rcases withoutPrefix_cases "sha256=" sig with hcut | hsame
    · exact ⟨_, h, .inr hcut⟩
    · exact ⟨_, h, .inl hsame.symm⟩

theorem not_signs_empty (digest : Vector UInt8 32) : ¬Signs digest (strip "") := by
  rw [show strip "" = "" from rfl, signs_iff]
  rintro (h | h)
  · have hnil := congrArg String.toList h
    simp only [base64Digest, String.toList_ofList] at hnil
    exact Base64.encode_ne_nil (digest_ne_nil digest) hnil.symm
  · have hlength := congrArg (fun s => s.toList.length) h
    simp [hexDigest, Hex.length_encode, lower, withoutPrefix] at hlength

/-- With a header and a secret, the check compares twice, or raises at once. -/
theorem verifyCorpxHmacSignature_eq (hheader : header ≠ "") (hsecret : secret ≠ "") :
    verifyCorpxHmacSignature hmacSha256 rawBody (some header) secret =
      if Utf.isAscii (strip header) then
        .ok (decide (strip header = base64Digest (hmacSha256 (Utf.encode secret) rawBody) ∨
          lower (withoutPrefix "sha256=" (strip header)) = hexDigest (hmacSha256 (Utf.encode secret) rawBody)))
      else .error .typeError := by
  unfold verifyCorpxHmacSignature
  rw [Option.getD_some, if_neg hheader, if_neg hsecret]
  simp only
  split
  · next hascii =>
    rw [compareDigest_of_ascii (base64Digest_ascii _) hascii,
      compareDigest_of_ascii (hexDigest_ascii _) (lower_withoutPrefix_ascii hascii _)]
    by_cases h64 : base64Digest (hmacSha256 (Utf.encode secret) rawBody) = strip header
    · simp [bind, Except.bind, pure, Except.pure, h64]
    · simp [bind, Except.bind, h64, Ne.symm h64, eq_comm]
  · next hascii =>
    rw [compareDigest_of_not_ascii (Bool.eq_false_iff.mpr hascii)]
    rfl

theorem corpxExact_iff (hmacSha256 : (key message : List UInt8) → Vector UInt8 32) (rawBody : List UInt8)
    (header : String) (hsecret : secret ≠ "") :
    CorpxExact hmacSha256 rawBody header secret ↔ Utf.isAscii (strip header) = true := by
  unfold CorpxExact
  by_cases hheader : header = ""
  · subst hheader
    refine iff_of_true ⟨false, rfl, ?_⟩ rfl
    simp [not_signs_empty]
  · rw [verifyCorpxHmacSignature_eq hheader hsecret]
    constructor
    · rintro ⟨valid, hvalid, -⟩
      by_contra hascii
      rw [if_neg hascii] at hvalid
      cases hvalid
    · intro hascii
      rw [if_pos hascii]
      exact ⟨_, rfl, by rw [decide_eq_true_iff, signs_iff]⟩

end Corpx
end CredBridge.PixService

namespace CredBridge.Api
open Result
open PixService (hexDigest hexDigest_ascii CorpxExact corpxExact_iff strip)

/-- The time that the header tells is near enough. -/
def WithinSkew (nowMillis : Int) (timestamp : String) (maxSkewSeconds : Rat) : Prop :=
  ∃ seconds, parseInt timestamp = some seconds ∧ (↑(nowMillis / 1000 - seconds).natAbs : Rat) ≤ maxSkewSeconds

/-- The API's check answers, and with the truth. -/
def CallbackExact (hmacSha256 : (key message : List UInt8) → Vector UInt8 32) (nowMillis : Int) (rawBody : List UInt8)
    (signature timestamp secret : String) (maxSkewSeconds : Rat) : Prop :=
  ∃ valid, verifyPixCallbackSignature ⟨fun key message => hexDigest (hmacSha256 key message)⟩ nowMillis rawBody
      (some signature) (some timestamp) secret (some maxSkewSeconds) = .ok valid ∧
    (valid = true ↔ WithinSkew nowMillis timestamp maxSkewSeconds ∧
      signature = "sha256=" ++ hexDigest (hmacSha256 (Utf.encode secret) (Utf.encode (timestamp ++ ".") ++ rawBody)))

/-- A text that the check compares byte by byte has to be as long in bytes as it is in units, and a body that a signature
    is checked for has to be text. -/
def Comparable (rawBody : List UInt8) (signature : String) : Prop :=
  (Utf.utf16Length signature = 71 → Utf.isAscii signature = true) ∧
    ((∃ digest, signature = "sha256=" ++ hexDigest digest) → ∃ text, rawBody = Utf.encode text)

section Callback
variable {hmacSha256 : (key message : List UInt8) → Vector UInt8 32} {nowMillis : Int} {rawBody : List UInt8}
  {signature timestamp secret : String} {maxSkewSeconds : Rat}

/-- What the check compares the header with. -/
def expectedHeader (hmacSha256 : (key message : List UInt8) → Vector UInt8 32) (rawBody : List UInt8)
    (timestamp secret : String) : String :=
  "sha256=" ++ hexDigest (hmacSha256 (Utf.encode secret) (Utf.encode (timestamp ++ "." ++ Utf.decode rawBody)))

theorem expected_ascii (digest : Vector UInt8 32) : Utf.isAscii ("sha256=" ++ hexDigest digest) = true := by
  have hdigits := hexDigest_ascii digest
  rw [Utf.isAscii, List.all_eq_true] at hdigits ⊢
  intro c hc
  rcases List.mem_append.mp (String.toList_append ▸ hc) with hprefix | hdigit
  · have hlabel : "sha256=".toList.all (fun c => decide (c.toNat < 128)) = true := by decide
    exact List.all_eq_true.mp hlabel c hprefix
  · exact hdigits c hdigit

theorem utf16Length_expected (digest : Vector UInt8 32) : Utf.utf16Length ("sha256=" ++ hexDigest digest) = 71 := by
  have hascii := expected_ascii digest
  rw [Utf.utf16Length_of_ascii hascii]
  simp [hexDigest, Hex.length_encode]

theorem timingSafeEqual_of_length {a b : String} (h : (Utf.encode a).length = (Utf.encode b).length) :
    timingSafeEqual a b = .ok (decide (a = b)) := by
  unfold timingSafeEqual
  rw [throwIf_bind_eq_ok]
  exact ⟨not_not_intro h, congrArg Except.ok (decide_eq_decide.mpr Utf.encode_inj)⟩

theorem verify_not_within (h : ¬WithinSkew nowMillis timestamp maxSkewSeconds) (crypto : Crypto) :
    verifyPixCallbackSignature crypto nowMillis rawBody (some signature) (some timestamp) secret (some maxSkewSeconds) =
      .ok false := by
  unfold verifyPixCallbackSignature
  split
  · rfl
  · simp only [Option.getD_some]
    split
    · rfl
    · next seconds hseconds =>
      have hfar : isSkewed (nowMillis / 1000) seconds (some maxSkewSeconds) = true :=
        decide_eq_true (Rat.not_le.mp fun hnear => h ⟨seconds, hseconds, hnear⟩)
      rw [if_pos hfar]
      rfl

theorem verify_within (h : WithinSkew nowMillis timestamp maxSkewSeconds) :
    verifyPixCallbackSignature ⟨fun key message => hexDigest (hmacSha256 key message)⟩ nowMillis rawBody
        (some signature) (some timestamp) secret (some maxSkewSeconds) =
      if Utf.utf16Length signature ≠ 71 then .ok false
      else if Utf.isAscii signature then .ok (decide (signature = expectedHeader hmacSha256 rawBody timestamp secret))
      else .error .rangeError := by
  obtain ⟨seconds, hseconds, hnear⟩ := h
  have htimestamp := isFalsy_of_parseInt hseconds
  have hskewed : isSkewed (nowMillis / 1000) seconds (some maxSkewSeconds) = false :=
    decide_eq_false (Rat.not_lt.mpr hnear)
  have hexpected := utf16Length_expected
    (hmacSha256 (Utf.encode secret) (Utf.encode (timestamp ++ "." ++ Utf.decode rawBody)))
  unfold verifyPixCallbackSignature
  by_cases hempty : signature = ""
  · subst hempty
    rfl
  · have hsignature : isFalsy (some signature) = false := decide_eq_false hempty
    simp only [hsignature, htimestamp, Bool.or_self, Bool.false_eq_true, if_false, Option.getD_some, hseconds, hskewed,
      hexpected]
    split
    · rfl
    · next hlength =>
      have hbytes := (Utf.length_encode_eq_iff _).mpr (expected_ascii
        (hmacSha256 (Utf.encode secret) (Utf.encode (timestamp ++ "." ++ Utf.decode rawBody))))
      rw [hexpected] at hbytes
      rw [ne_eq, Decidable.not_not] at hlength
      split
      · next hascii =>
        have hsame := (Utf.length_encode_eq_iff signature).mpr hascii
        exact timingSafeEqual_of_length (hsame.trans (hlength.trans hbytes.symm))
      · next hascii =>
        have hdiffers : (Utf.encode signature).length ≠ 71 := fun h =>
          hascii ((Utf.length_encode_eq_iff signature).mp (h.trans hlength.symm))
        unfold timingSafeEqual throwIf
        rw [hbytes, if_pos hdiffers]
        rfl

/-- The text that the API signs is the bytes that were signed only if the body is text. -/
theorem message_eq_iff : Utf.encode (timestamp ++ "." ++ Utf.decode rawBody) = Utf.encode (timestamp ++ ".") ++ rawBody ↔
    ∃ text, rawBody = Utf.encode text := by
  rw [Utf.encode_append, List.append_right_inj]
  constructor
  · exact fun h => ⟨_, h.symm⟩
  · rintro ⟨text, rfl⟩
    rw [Utf.decode_encode]

theorem callbackExact_of_comparable (h : WithinSkew nowMillis timestamp maxSkewSeconds → Comparable rawBody signature)
    (hmacSha256 : (key message : List UInt8) → Vector UInt8 32) :
    CallbackExact hmacSha256 nowMillis rawBody signature timestamp secret maxSkewSeconds := by
  unfold CallbackExact
  by_cases hwithin : WithinSkew nowMillis timestamp maxSkewSeconds
  · obtain ⟨hunits, htext⟩ := h hwithin
    rw [verify_within hwithin]
    by_cases hlength : Utf.utf16Length signature = 71
    · rw [if_neg (not_not_intro hlength), if_pos (hunits hlength)]
      refine ⟨_, rfl, ?_⟩
      rw [decide_eq_true_iff, and_iff_right hwithin]
      by_cases hdigest : ∃ digest, signature = "sha256=" ++ hexDigest digest
      · rw [expectedHeader, message_eq_iff.mpr (htext hdigest)]
      · exact iff_of_false (fun heq => hdigest ⟨_, heq⟩) fun heq => hdigest ⟨_, heq⟩
    · rw [if_pos hlength]
      refine ⟨_, rfl, iff_of_false Bool.false_ne_true ?_⟩
      rintro ⟨-, rfl⟩
      exact hlength (utf16Length_expected _)
  · rw [verify_not_within hwithin]
    exact ⟨_, rfl, iff_of_false Bool.false_ne_true fun hspec => hwithin hspec.1⟩

theorem hexDigest_injective : Function.Injective hexDigest := by
  intro digest digest' h
  have hbytes := congrArg (fun s => Hex.decode s.toList) h
  simp only [hexDigest, String.toList_ofList, Hex.decode_encode] at hbytes
  exact Vector.toList_inj.mp hbytes

/-- The digest of the signed bytes is one, and of every other message another. -/
def hmacOf (signed : List UInt8) (digest : Vector UInt8 32) (_key message : List UInt8) : Vector UInt8 32 :=
  if message = signed then digest
  else if digest = Vector.replicate 32 0 then Vector.replicate 32 1
  else Vector.replicate 32 0

theorem hmacOf_ne {signed message key : List UInt8} (digest : Vector UInt8 32) (h : message ≠ signed) :
    hmacOf signed digest key message ≠ digest := by
  unfold hmacOf
  rw [if_neg h]
  split
  · next hzero =>
    rw [hzero]
    decide
  · next hne => exact Ne.symm hne

theorem comparable_of_callbackExact
    (h : ∀ hmacSha256, CallbackExact hmacSha256 nowMillis rawBody signature timestamp secret maxSkewSeconds)
    (hwithin : WithinSkew nowMillis timestamp maxSkewSeconds) : Comparable rawBody signature := by
  constructor
  · intro hlength
    by_contra hascii
    obtain ⟨valid, hvalid, -⟩ := h fun _ _ => Vector.replicate 32 0
    rw [verify_within hwithin, if_neg (not_not_intro hlength), if_neg hascii] at hvalid
    cases hvalid
  · rintro ⟨digest, rfl⟩
    by_contra hbinary
    have hmessage : Utf.encode (timestamp ++ "." ++ Utf.decode rawBody) ≠ Utf.encode (timestamp ++ ".") ++ rawBody :=
      fun heq => hbinary (message_eq_iff.mp heq)
    obtain ⟨valid, hvalid, hspec⟩ := h (hmacOf (Utf.encode (timestamp ++ ".") ++ rawBody) digest)
    rw [verify_within hwithin, if_neg (not_not_intro (utf16Length_expected digest)), if_pos (expected_ascii digest)]
      at hvalid
    have hsigned : valid = true := hspec.mpr ⟨hwithin, by rw [hmacOf, if_pos rfl]⟩
    rw [hsigned, Except.ok.injEq, decide_eq_true_iff, expectedHeader, String.append_right_inj] at hvalid
    exact hmacOf_ne digest hmessage (hexDigest_injective hvalid).symm

end Callback

/-- Whatever the keyed hash, the service's check answers every header truly exactly if the header is in ASCII between its
    blanks. The API's does exactly if, within the tolerance, a header of the expected length is in ASCII and a header of
    the expected form comes with a body in UTF-8. -/
theorem signatures_exact_iff {secret : String} (hsecret : secret ≠ "") :
    (∀ hmacSha256 rawBody header, CorpxExact hmacSha256 rawBody header secret ↔ Utf.isAscii (strip header) = true) ∧
    ∀ nowMillis rawBody signature timestamp maxSkewSeconds,
      (∀ hmacSha256, CallbackExact hmacSha256 nowMillis rawBody signature timestamp secret maxSkewSeconds) ↔
        (WithinSkew nowMillis timestamp maxSkewSeconds → Comparable rawBody signature) :=
  ⟨fun hmacSha256 rawBody header => corpxExact_iff hmacSha256 rawBody header hsecret,
    fun _ _ _ _ _ => ⟨comparable_of_callbackExact, callbackExact_of_comparable⟩⟩

section Examples

def zeroDigest : Vector UInt8 32 := Vector.replicate 32 0

theorem signatures_exact_iff_invalid : CorpxExact (fun _ _ => zeroDigest) [] " sha256=invalid" "my_secret" :=
  ((signatures_exact_iff (show "my_secret" ≠ "" by decide)).1 _ _ _).mpr (by decide)

/-- A header with one letter that is not in ASCII makes each check raise; and a body that is not in UTF-8 is refused with
    its own signature. -/
theorem signatures_not_exact :
    (¬CorpxExact (fun _ _ => zeroDigest) [] "é" "my_secret") ∧
    (¬∀ hmacSha256, CallbackExact hmacSha256 1000000 [] ("sha256=" ++ String.ofList (List.replicate 63 'a') ++ "é") "1000"
      "my_secret" 300) ∧
    ¬∀ hmacSha256, CallbackExact hmacSha256 1000000 [0xFF] ("sha256=" ++ hexDigest zeroDigest) "1000" "my_secret" 300 := by
  have hwithin : WithinSkew 1000000 "1000" 300 := ⟨1000, by decide, by decide⟩
  refine ⟨fun h => ?_, fun h => ?_, fun h => ?_⟩
  · cases (corpxExact_iff _ _ _ (by decide)).mp h
  · cases (comparable_of_callbackExact h hwithin).1 (by decide)
  · obtain ⟨text, htext⟩ := (comparable_of_callbackExact h hwithin).2 ⟨zeroDigest, rfl⟩
    have hdecoded : Utf.encode (Utf.decode [0xFF]) = [0xFF] := by rw [htext, Utf.decode_encode]
    exact absurd hdecoded (by decide)

end Examples
end CredBridge.Api
