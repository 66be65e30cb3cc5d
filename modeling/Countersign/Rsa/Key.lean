import Countersign.Bytes

/-!
# RSA keys

A public key is a modulus with an exponent; a private key knows the primes and
the inverse exponent as well. Numbers come unchecked from files; the conditions
under which they form a key are fields of the key types, so a key in hand
satisfies them.
-/

set_option autoImplicit false

namespace Countersign.Rsa

structure PublicNumbers where
  modulus : Nat
  exponent : Nat
deriving DecidableEq, Repr

namespace PublicNumbers

def size (k : PublicNumbers) : Nat := Bytes.widthOf k.modulus

def bits (k : PublicNumbers) : Nat := if k.modulus = 0 then 0 else Nat.log2 k.modulus + 1

end PublicNumbers

/-- The numbers of a private key: the private exponent, the primes, the private exponent reduced for
each prime, and the inverse of the second prime modulo the first. -/
structure PrivateNumbers extends PublicNumbers where
  secret : Nat
  p : Nat
  q : Nat
  secretP : Nat
  secretQ : Nat
  coefficient : Nat
deriving DecidableEq, Repr

/-- The exponents and moduli that verification accepts: a modulus of at most 4096 bits, odd, and
above an odd exponent of at most 33 bits that is not one. -/
def Usable (modulus exponent : Nat) : Prop :=
  modulus < Nat.pow 2 4096 ∧ modulus % 2 = 1 ∧ exponent % 2 = 1 ∧ 2 ≤ exponent ∧ exponent < 8589934592 ∧
    exponent < modulus

instance (modulus exponent : Nat) : Decidable (Usable modulus exponent) :=
  inferInstanceAs (Decidable (_ ∧ _))

structure PublicKey extends PublicNumbers where
  usable : Usable modulus exponent
deriving DecidableEq, Repr

def PublicKey.ofNumbers? (modulus exponent : Nat) : Option PublicKey :=
  if h : Usable modulus exponent then some ⟨⟨modulus, exponent⟩, h⟩ else none

/-- The two primes multiply to the modulus, and the exponents are inverse modulo each prime less
one. -/
def Consistent (modulus exponent secret p q : Nat) : Prop :=
  p * q = modulus ∧ (2 ≤ p ∧ exponent * secret % (p - 1) = 1) ∧
    (2 ≤ q ∧ exponent * secret % (q - 1) = 1)

instance (modulus exponent secret p q : Nat) : Decidable (Consistent modulus exponent secret p q) :=
  inferInstanceAs (Decidable (_ ∧ _))

structure PrivateKey extends PublicKey where
  secret : Nat
  p : Nat
  q : Nat
  consistent : Consistent modulus exponent secret p q
deriving DecidableEq, Repr

def PrivateKey.ofNumbers? (modulus exponent secret p q : Nat) : Option PrivateKey :=
  if h : Usable modulus exponent then
    if h' : Consistent modulus exponent secret p q then
      some { modulus := modulus, exponent := exponent, usable := h, secret := secret, p := p, q := q,
             consistent := h' }
    else none
  else none

end Countersign.Rsa
