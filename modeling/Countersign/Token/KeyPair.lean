import Countersign.Encoding.DerTree
import Countersign.Files
import Countersign.Rsa.Generation
import Countersign.Rsa.KeyFile
import Countersign.Rsa.Signature
import Countersign.Text.Quoted
import Countersign.Token.Error
import Countersign.Token.Policy

/-!
# Token key pairs

The keys that tokens are signed and read with. A PEM block is taken for a key when
its label and the algorithm named inside it say so; whether the numbers in it form
a key that can sign or verify shows only when they are looked at. So a pair may
hold no usable key on either side: then it signs nothing, or accepts nothing.
-/

set_option autoImplicit false

namespace Countersign

namespace Rsa

def TokenSized (k : PublicNumbers) : Prop :=
  2048 ≤ k.bits ∧ k.bits ≤ 8192 ∧ k.modulus % 2 = 1 ∧ k.exponent % 2 = 1 ∧ 2 ≤ k.exponent ∧
    k.exponent < 8589934592

instance (k : PublicNumbers) : Decidable (TokenSized k) := inferInstanceAs (Decidable (_ ∧ _))

def PrivateNumbers.Sound (k : PrivateNumbers) : Prop :=
  k.p * k.q = k.modulus ∧ k.secret < k.modulus ∧
    (2 ≤ k.p ∧ k.exponent * k.secret % (k.p - 1) = 1 ∧ k.secretP < k.p - 1 ∧
      k.exponent * k.secretP % (k.p - 1) = 1) ∧
    (2 ≤ k.q ∧ k.exponent * k.secret % (k.q - 1) = 1 ∧ k.secretQ < k.q - 1 ∧
      k.exponent * k.secretQ % (k.q - 1) = 1) ∧
    k.coefficient < k.p ∧ k.q * k.coefficient % k.p = 1

instance (k : PrivateNumbers) : Decidable k.Sound := inferInstanceAs (Decidable (_ ∧ _))

def PrivateKey.numbers? (k : PrivateKey) : Option PrivateNumbers := do
  let coefficient ← inverse? k.q k.p
  return ⟨k.toPublicNumbers, k.secret, k.p, k.q, k.secret % (k.p - 1), k.secret % (k.q - 1), coefficient⟩

end Rsa

structure SigningKey extends Rsa.PrivateNumbers where
  sized : Rsa.TokenSized toPublicNumbers
  sound : toPrivateNumbers.Sound

namespace SigningKey

def ofNumbers? (k : Rsa.PrivateNumbers) : Option SigningKey :=
  if h : Rsa.TokenSized k.toPublicNumbers then if h' : k.Sound then some ⟨k, h, h'⟩ else none else none

def sign (k : SigningKey) (message : Bytes) : Except Rsa.SigningFailure Bytes :=
  Rsa.sign k.toPublicNumbers k.p k.q k.secret message

end SigningKey

structure VerifyingKey extends Rsa.PublicNumbers where
  sized : Rsa.TokenSized toPublicNumbers

namespace VerifyingKey

def ofNumbers? (k : Rsa.PublicNumbers) : Option VerifyingKey :=
  if h : Rsa.TokenSized k then some ⟨k, h⟩ else none

def verify (k : VerifyingKey) (message signature : Bytes) : Bool :=
  k.toPublicNumbers.verify message signature

end VerifyingKey

inductive KeyTextFailure where
  | unknownFormat
  | noKeyBytes
deriving DecidableEq, Repr

def KeyTextFailure.message : KeyTextFailure → String
  | unknownFormat => "InvalidKeyFormat"
  | noKeyBytes => "InvalidEcdsaKey"

inductive KeyFamily where
  | ellipticCurve
  | rsa
  | edwardsCurve
deriving DecidableEq, Repr

def KeyFamily.ofArcs? (arcs : List Nat) : Option KeyFamily :=
  if arcs = [1, 2, 840, 10045, 2, 1] then some ellipticCurve
  else if arcs = [1, 2, 840, 113549, 1, 1, 1] then some rsa
  else if arcs = [1, 3, 101, 112] then some edwardsCurve
  else none

def KeyFamily.find? (ts : List Der.Tree) : Option KeyFamily :=
  Der.Tree.findIn? (fun | .objectId arcs => KeyFamily.ofArcs? arcs | _ => none) ts

def rsaKeyBytes (text : String) : Except KeyTextFailure Bytes :=
  match Pem.lenient? text.toList with
  | none => .error .unknownFormat
  | some (label, der) =>
    match Der.Tree.ofBytes? der with
    | none => .error .unknownFormat
    | some ts =>
      let label := String.ofList label
      if label = "RSA PRIVATE KEY" ∨ label = "RSA PUBLIC KEY" then .ok der
      else if label = "PRIVATE KEY" ∨ label = "PUBLIC KEY" ∨ label = "CERTIFICATE" then
        if KeyFamily.find? ts = some .rsa then
          match Der.firstString? ts with
          | some b => .ok b
          | none => .error .noKeyBytes
        else .error .unknownFormat
      else .error .unknownFormat

/-- A pair of keys; a side that cannot do its work is missing. -/
structure KeyPair where
  signing : Option SigningKey
  verifying : Option VerifyingKey

namespace KeyPair

def ofBytes (privateBytes publicBytes : Bytes) : KeyPair where
  signing := (Rsa.PrivateNumbers.ofDer? privateBytes).bind SigningKey.ofNumbers?
  verifying :=
    ((Rsa.PublicNumbers.ofDer? publicBytes).orElse fun _ => Rsa.PublicNumbers.ofSpki? publicBytes).bind
      VerifyingKey.ofNumbers?

/-- The pair in two PEM texts; the private one is judged first. -/
def ofPem (privatePem publicPem : String) : Except TokenError KeyPair :=
  match rsaKeyBytes privatePem with
  | .error e => .error (.invalidKey ("private key: " ++ e.message))
  | .ok privateBytes =>
    match rsaKeyBytes publicPem with
    | .error e => .error (.invalidKey ("public key: " ++ e.message))
    | .ok publicBytes => .ok (ofBytes privateBytes publicBytes)

def readKey (fs : Files) (path : String) : Except TokenError String :=
  match fs.read path with
  | .ok contents => .ok (Utf8.toStringLossy contents)
  | .error e => .error (.invalidKey ("failed to read " ++ path ++ ": " ++ e.message))

def ofFiles (fs : Files) (privatePath publicPath : String) : Except TokenError KeyPair := do
  ofPem (← readKey fs privatePath) (← readKey fs publicPath)

def ofPolicy (fs : Files) (p : TokenPolicy) : Except TokenError KeyPair :=
  match p.privateKeyPath, p.publicKeyPath with
  | some privatePath, some publicPath => ofFiles fs privatePath publicPath
  | _, _ => .error (.invalidKey "private_key_path and public_key_path must both be set")

def ofPrivateKey (k : Rsa.PrivateKey) : KeyPair where
  signing := k.numbers?.bind SigningKey.ofNumbers?
  verifying := VerifyingKey.ofNumbers? k.toPublicNumbers

def generate (bits : Nat) (g : StdGen) : Except TokenError KeyPair × StdGen :=
  match Rsa.PrivateKey.generate? bits g with
  | (some k, g) => (.ok (ofPrivateKey k), g)
  | (none, g) => (.error (.invalidKey "key generation failed"), g)

def describe (_ : KeyPair) : String := "TokenKeyPair \x7b algorithm: \"RS256\", .. \x7d"

end KeyPair

end Countersign
