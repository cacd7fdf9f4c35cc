import CredBridge.Lib.Result
import CredBridge.Lib.Utf

/-! # Signatures of Pix callbacks

The Pix service signs the text `timestamp.body` of each callback with the shared secret, and the API checks
the signature over the raw body. The keyed hash is a parameter; the rest of the check is as the runtime
computes it: what counts as a number, lengths in UTF-16 units, and a comparison of bytes that raises when
the lengths differ. -/

namespace CredBridge.Api
open Result

/-- The runtime's keyed hash: HMAC-SHA256 of a message under a key, in hexadecimal digits. -/
structure Crypto where
  hmacSha256Hex : (key message : List UInt8) → String

inductive RuntimeError where
  | typeError
  | rangeError
deriving DecidableEq, Repr

def isSpace (c : Char) : Bool :=
  c.toNat ∈ [0x09, 0x0A, 0x0B, 0x0C, 0x0D, 0x20, 0xA0, 0x1680, 0x2028, 0x2029, 0x202F, 0x205F, 0x3000, 0xFEFF] ||
    decide (0x2000 ≤ c.toNat ∧ c.toNat ≤ 0x200A)

def digitsValue (digits : List Char) : Nat := digits.foldl (fun n c => n * 10 + (c.toNat - '0'.toNat)) 0

/-- `parseInt(s, 10)`: the digits in front, after blanks and a sign; none without a digit. -/
def parseInt (s : String) : Option Int :=
  let rest := s.toList.dropWhile isSpace
  let negative := rest.head? = some '-'
  let rest := if rest.head? = some '-' ∨ rest.head? = some '+' then rest.tail else rest
  let digits := rest.takeWhile Char.isDigit
  if digits.isEmpty then none else some (if negative then -digitsValue digits else digitsValue digits)

def isFalsy (header : Option String) : Bool := header.getD "" = ""

/-- A header that a time is read from is there. -/
theorem isFalsy_of_parseInt {timestamp : String} {t : Int} (htime : parseInt timestamp = some t) :
    isFalsy (some timestamp) = false := by
  unfold isFalsy
  rw [decide_eq_false_iff_not]
  rintro rfl
  cases htime

def timingSafeEqual (a b : String) : Except RuntimeError Bool := do
  throwIf ((Utf.encode a).length ≠ (Utf.encode b).length) .rangeError
  pure (decide (Utf.encode a = Utf.encode b))

/-- Further from now than the tolerance; nothing is when the tolerance is not a number. -/
def isSkewed (nowSeconds timestampSeconds : Int) (maxSkewSeconds : Option Rat) : Bool :=
  match maxSkewSeconds with
  | some skew => decide ((↑(nowSeconds - timestampSeconds).natAbs : Rat) > skew)
  | none => false

def verifyPixCallbackSignature (crypto : Crypto) (nowMillis : Int) (rawBody : List UInt8)
    (signatureHeader timestampHeader : Option String) (secret : String) (maxSkewSeconds : Option Rat) :
    Except RuntimeError Bool :=
  if isFalsy signatureHeader || isFalsy timestampHeader then
    pure false
  else
    let signature := signatureHeader.getD ""
    let timestamp := timestampHeader.getD ""
    match parseInt timestamp with
    | none => pure false
    | some timestampSeconds =>
      if isSkewed (nowMillis / 1000) timestampSeconds maxSkewSeconds then
        pure false
      else
        let bodyString := Utf.decode rawBody
        let message := timestamp ++ "." ++ bodyString
        let expectedSignature := crypto.hmacSha256Hex (Utf.encode secret) (Utf.encode message)
        let expectedHeader := "sha256=" ++ expectedSignature
        if Utf.utf16Length signature ≠ Utf.utf16Length expectedHeader then
          pure false
        else
          timingSafeEqual signature expectedHeader

end CredBridge.Api
