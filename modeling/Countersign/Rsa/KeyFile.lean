import Countersign.Encoding.Der
import Countersign.Encoding.Pem
import Countersign.Rsa.Key

/-!
# RSA key files

Private keys come as PKCS#8 and public keys as SubjectPublicKeyInfo, each in a
strict PEM block and in DER without anything left over.
-/

set_option autoImplicit false

namespace Countersign.Rsa

def algorithm : Bytes :=
  [0x06, 0x09, 0x2a, 0x86, 0x48, 0x86, 0xf7, 0x0d, 0x01, 0x01, 0x01, 0x05, 0x00]

def bitStringField : UInt8 := 0x81

def isContextTag (tag : UInt8) : Bool := 0x80 ≤ tag && tag < 0xc0

/-- Skips the fields before the public key of a private key file, and returns the public key if it
is there, with the fields that follow. -/
def skipToPublicField? (fuel : Nat) (b : Bytes) : Option (Option Bytes × Bytes) :=
  match fuel, b with
  | 0, _ => none
  | _, [] => some (none, [])
  | fuel + 1, tag :: _ =>
    if !isContextTag tag || 1 < tag &&& 0x1f then some (none, b)
    else do
      let (tag, contents, rest) ← Der.element? b
      if tag &&& 0x1f = 1 then
        match contents with
        | 0 :: bits => if tag = bitStringField then some (some bits, rest) else none
        | _ => none
      else skipToPublicField? fuel rest

def onlyContextFields (fuel : Nat) (b : Bytes) : Bool :=
  match fuel, b with
  | _, [] => true
  | 0, _ => false
  | fuel + 1, b =>
    match Der.element? b with
    | some (tag, contents, rest) =>
      isContextTag tag && tag &&& 0x20 ≠ 0 && (Der.element? contents).any (·.2.2 == []) &&
        onlyContextFields fuel rest
    | none => false

def PrivateNumbers.ofDer? (der : Bytes) : Option PrivateNumbers := do
  let body ← Der.whole? Der.sequenceTag der
  match ← Der.naturals? 9 body with
  | ([0, n, e, d, p, q, dp, dq, c], []) => some ⟨⟨n, e⟩, d, p, q, dp, dq, c⟩
  | _ => none

def PublicNumbers.ofDer? (der : Bytes) : Option PublicNumbers := do
  let body ← Der.whole? Der.sequenceTag der
  match ← Der.naturals? 2 body with
  | ([n, e], []) => some ⟨n, e⟩
  | _ => none

def PrivateKey.ofPkcs8? (der : Bytes) : Option PrivateKey := do
  let body ← Der.whole? Der.sequenceTag der
  let (version, r) ← Der.natural? body
  let (identifier, r) ← Der.contents? Der.sequenceTag r
  let (inner, r) ← Der.contents? Der.octetStringTag r
  let (publicField, r) ← skipToPublicField? (r.length + 1) r
  if 1 < version ∨ (version = 1) ≠ publicField.isSome then none
  if !onlyContextFields (r.length + 1) r then none
  if identifier ≠ algorithm then none
  let k ← PrivateNumbers.ofDer? inner
  PrivateKey.ofNumbers? k.modulus k.exponent k.secret k.p k.q

def PublicNumbers.ofSpki? (der : Bytes) : Option PublicNumbers := do
  let body ← Der.whole? Der.sequenceTag der
  let (identifier, r) ← Der.contents? Der.sequenceTag body
  let (inner, r) ← Der.bitString? r
  if r ≠ [] ∨ identifier ≠ algorithm then none
  PublicNumbers.ofDer? inner

def PublicKey.ofSpki? (der : Bytes) : Option PublicKey := do
  let k ← PublicNumbers.ofSpki? der
  PublicKey.ofNumbers? k.modulus k.exponent

def PrivateKey.ofPem? (text : String) : Option PrivateKey := do
  PrivateKey.ofPkcs8? (← Pem.strict? "PRIVATE KEY".toList text.toList)

def PublicKey.ofPem? (text : String) : Option PublicKey := do
  PublicKey.ofSpki? (← Pem.strict? "PUBLIC KEY".toList text.toList)

end Countersign.Rsa
