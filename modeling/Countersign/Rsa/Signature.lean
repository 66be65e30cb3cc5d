import Countersign.Digest.Sha256
import Countersign.Rsa.Arithmetic
import Countersign.Rsa.Key

/-!
# RSA signatures

PKCS#1 v1.5 signatures of SHA-256 digests. The digest is put into a block as
wide as the modulus, and the block is raised to the private exponent, prime by
prime. A fresh signature is raised back with the public exponent before it is
handed out, so whatever the primes are, what signs also verifies.
-/

set_option autoImplicit false

namespace Countersign.Rsa

/-- What stands before the digest: its algorithm and its length. -/
def digestLabel : Bytes :=
  [0x30, 0x31, 0x30, 0x0d, 0x06, 0x09, 0x60, 0x86, 0x48, 0x01, 0x65, 0x03, 0x04, 0x02, 0x01, 0x05,
   0x00, 0x04, 0x20]

def block? (size : Nat) (message : Bytes) : Option Bytes :=
  let body := digestLabel ++ Sha256.digest message
  if body.length + 11 ≤ size then
    some ([0x00, 0x01] ++ List.replicate (size - body.length - 3) 0xff ++ [0x00] ++ body)
  else none

inductive SigningFailure where
  | messageTooLong
  | inconsistent
deriving DecidableEq, Repr

def PublicNumbers.apply (k : PublicNumbers) (m : Nat) : Nat := powMod m k.exponent k.modulus

/-- The private power of a number, put together from its powers modulo the two primes. -/
def privatePower (p q secret m : Nat) : Nat :=
  match inverse? q p with
  | none => powMod m secret (p * q)
  | some inverse =>
    let m₁ := powMod m (secret % (p - 1)) p
    let m₂ := powMod m (secret % (q - 1)) q
    (m₁ + (p - m₂ % p)) * inverse % p * q + m₂

/-- The signature of a message by numbers of which only those that are used are given. -/
def sign (k : PublicNumbers) (p q secret : Nat) (message : Bytes) : Except SigningFailure Bytes :=
  match block? k.size message with
  | none => .error .messageTooLong
  | some block =>
    let m := Bytes.toNatBE block
    let s := privatePower p q secret m
    if s < k.modulus ∧ k.apply s = m then .ok (Bytes.ofNatBE k.size s) else .error .inconsistent

def PrivateKey.sign (k : PrivateKey) (message : Bytes) : Except SigningFailure Bytes :=
  Rsa.sign k.toPublicNumbers k.p k.q k.secret message

/-- A signature is as wide as the modulus, lies below it, and its public power is the block. -/
def PublicNumbers.verify (k : PublicNumbers) (message signature : Bytes) : Bool :=
  match block? k.size message with
  | none => false
  | some block =>
    signature.length == k.size && Bytes.toNatBE signature < k.modulus &&
      k.apply (Bytes.toNatBE signature) == Bytes.toNatBE block

end Countersign.Rsa
