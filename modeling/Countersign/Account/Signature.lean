import Countersign.Account.Key
import Countersign.Canonical.Request
import Countersign.Digest.Hmac
import Countersign.Encoding.Base64

/-!
# Signing a canonical request

Each algorithm signs its own form of the request and writes the signature in
standard Base64. A signature is read without surrounding white space and must be
spelled exactly as it would be written.
-/

set_option autoImplicit false

namespace Countersign

def encodeSignature (b : Bytes) : String := String.ofList (Base64.encode .standard b)

def decodeSignature? (s : String) : Option Bytes := Base64.decode? .standard (Text.trim s.toList)

namespace Algorithm

def canonicalText : Algorithm → CanonicalRequest → String
  | hmacSha256, r => r.digestForm
  | sha256WithRsa, r => r.linesForm

def message (a : Algorithm) (r : CanonicalRequest) : Bytes := Utf8.ofString (a.canonicalText r)

def signingFailure : Rsa.SigningFailure → SignatureError
  | .messageTooLong => .crypto "RSA signing failed: signature error: message too long"
  | .inconsistent => .crypto "RSA signing failed: signature error: internal error"

def sign (a : Algorithm) (r : CanonicalRequest) (key : KeyMaterial) : Except SignatureError String :=
  match a, key with
  | hmacSha256, .secret s => .ok (encodeSignature (Hmac.tag (Utf8.ofString s) (a.message r)))
  | sha256WithRsa, .rsaPrivate k =>
    match k.sign (a.message r) with
    | .ok b => .ok (encodeSignature b)
    | .error e => .error (signingFailure e)
  | sha256WithRsa, .rsaPublic _ => .error (.invalidKey "signing requires an RSA private key")
  | _, _ => .error (.keyMismatch a)

def verify (a : Algorithm) (r : CanonicalRequest) (key : KeyMaterial) (signature : String) :
    Except SignatureError Bool :=
  match a, key with
  | hmacSha256, .secret s =>
    .ok ((decodeSignature? signature).any (· == Hmac.tag (Utf8.ofString s) (a.message r)))
  | sha256WithRsa, .rsaPrivate k =>
    .ok ((decodeSignature? signature).any (k.toPublicKey.verify (a.message r)))
  | sha256WithRsa, .rsaPublic k => .ok ((decodeSignature? signature).any (k.verify (a.message r)))
  | _, _ => .error (.keyMismatch a)

end Algorithm

end Countersign
