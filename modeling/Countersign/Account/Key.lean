import Countersign.Account.Error
import Countersign.Rsa.KeyFile
import Countersign.Rsa.Signature

/-!
# Key material

What an account signs and verifies with: a shared secret, or one half or both of
an RSA key.
-/

set_option autoImplicit false

namespace Countersign

inductive KeyMaterial where
  | secret (text : String)
  | rsaPrivate (key : Rsa.PrivateKey)
  | rsaPublic (key : Rsa.PublicKey)
deriving DecidableEq

namespace KeyMaterial

def kind : KeyMaterial → String
  | secret _ => "secret"
  | rsaPrivate _ => "rsa-keypair"
  | rsaPublic _ => "rsa-public"

def public? : KeyMaterial → Option Rsa.PublicKey
  | secret _ => none
  | rsaPrivate k => some k.toPublicKey
  | rsaPublic k => some k

def ofPrivatePem (pem : String) : Except SignatureError KeyMaterial :=
  match Rsa.PrivateKey.ofPem? pem with
  | some k => .ok (rsaPrivate k)
  | none => .error (.invalidKey "RSA private key")

def ofPublicPem (pem : String) : Except SignatureError KeyMaterial :=
  match Rsa.PublicKey.ofPem? pem with
  | some k => .ok (rsaPublic k)
  | none => .error (.invalidKey "RSA public key")

end KeyMaterial

end Countersign
