import CredBridge.Lib.Base64
import CredBridge.Lib.Hex
import CredBridge.Lib.Utf
import CredBridge.PixService.Models

/-! # Signatures of the provider's webhooks

The provider signs the raw body, and sends the digest in base64 or in hexadecimal digits. The keyed hash is a
parameter; the comparison is that of the runtime, which raises for a text that is not in ASCII. -/

namespace CredBridge.PixService
open Result

/-- What `str.strip` takes off. -/
def isBlank (c : Char) : Bool :=
  c.toNat ∈ [0x09, 0x0A, 0x0B, 0x0C, 0x0D, 0x1C, 0x1D, 0x1E, 0x1F, 0x20, 0x85, 0xA0, 0x1680, 0x2028, 0x2029, 0x202F,
    0x205F, 0x3000] || decide (0x2000 ≤ c.toNat ∧ c.toNat ≤ 0x200A)

def strip (s : String) : String :=
  String.ofList ((s.toList.dropWhile isBlank).reverse.dropWhile isBlank).reverse

/-- `str.lower` of a text in ASCII; it is asked of no other. -/
def lower (s : String) : String := String.ofList (s.toList.map Char.toLower)

def withoutPrefix (expectedPrefix s : String) : String :=
  if expectedPrefix.toList.isPrefixOf s.toList then String.ofList (s.toList.drop expectedPrefix.toList.length) else s

/-- `hmac.compare_digest` of two texts. -/
def compareDigest (a b : String) : Except PyError Bool := do
  throwIf ((Utf.isAscii a && Utf.isAscii b) = false) .typeError
  pure (decide (a = b))

def base64Digest (digest : Vector UInt8 32) : String := String.ofList (Base64.encode digest.toList)

def hexDigest (digest : Vector UInt8 32) : String := String.ofList (Hex.encode digest.toList)

/-- Without a secret, as in the sandbox, every signed webhook is accepted. -/
def verifyCorpxHmacSignature (hmacSha256 : (key message : List UInt8) → Vector UInt8 32) (rawBody : List UInt8)
    (signatureHeader : Option String) (secret : String) : Except PyError Bool :=
  if signatureHeader.getD "" = "" then
    pure false
  else if secret = "" then
    pure true
  else do
    let sig := strip (signatureHeader.getD "")
    let expectedPrefix := "sha256="
    let sigClean := withoutPrefix expectedPrefix sig
    let h := hmacSha256 (Utf.encode secret) rawBody
    let expectedBase64 := base64Digest h
    let expectedHex := hexDigest h
    if ← compareDigest expectedBase64 sig then
      pure true
    else
      compareDigest expectedHex (lower sigClean)

end CredBridge.PixService
