import Countersign.Rsa.Arithmetic
import Countersign.Rsa.Key

/-!
# Making RSA keys

Two random primes of half the size each, with their two top bits set so that the
modulus has exactly the wanted number of bits. Primality is judged by trial
division and by strong tests to fixed bases; what makes a key a key is checked
when it is put together.
-/

set_option autoImplicit false

namespace Countersign.Rsa

def primesBelow (n : Nat) : List Nat :=
  (List.range n).filter fun k => 2 ≤ k && (List.range k).all fun d => d < 2 || k % d ≠ 0

def smallPrimes : List Nat := primesBelow 400

def splitTwos (fuel : Nat) (d : Nat) : Nat × Nat :=
  match fuel with
  | 0 => (d, 0)
  | fuel + 1 => if d % 2 = 0 then let (d, s) := splitTwos fuel (d / 2); (d, s + 1) else (d, 0)

/-- Whether one of `s` repeated squarings of `x` gives `n - 1`. -/
def reachesMinusOne (n : Nat) : Nat → Nat → Bool
  | 0, _ => false
  | s + 1, x => x = n - 1 || reachesMinusOne n s (x * x % n)

def passesStrongTest (n base : Nat) : Bool :=
  let (d, s) := splitTwos (Nat.log2 n + 1) (n - 1)
  let x := powMod base d n
  x = 1 || reachesMinusOne n s x

def isProbablePrime (n : Nat) : Bool :=
  if n < 2 then false
  else if smallPrimes.any fun p => n % p = 0 then smallPrimes.contains n
  else (smallPrimes.take 20).all (passesStrongTest n)

/-- The first number at or after `n`, in steps of two, that is taken for a prime. -/
def nextPrime? : Nat → Nat → Option Nat
  | 0, _ => none
  | fuel + 1, n => if isProbablePrime n then some n else nextPrime? fuel (n + 2)

/-- A random prime of exactly `bits` bits, the top two of which are set. -/
def randomPrime? (bits : Nat) (g : StdGen) : Option Nat × StdGen :=
  let (n, g) := randNat g (3 * Nat.pow 2 (bits - 2)) (Nat.pow 2 bits - 1)
  ((nextPrime? (16 * bits) (n / 2 * 2 + 1)).filter (· < Nat.pow 2 bits), g)

def commonExponent : Nat := 65537

def PrivateKey.ofPrimes? (p q : Nat) : Option PrivateKey := do
  let d ← inverse? commonExponent ((p - 1) * (q - 1))
  if p = q then none else PrivateKey.ofNumbers? (p * q) commonExponent d p q

def PrivateKey.attempt (bits : Nat) : Nat → StdGen → Option PrivateKey × StdGen
  | 0, g => (none, g)
  | attempts + 1, g =>
    let (p, g) := randomPrime? (bits / 2) g
    let (q, g) := randomPrime? (bits - bits / 2) g
    match p, q with
    | some p, some q =>
      match PrivateKey.ofPrimes? p q with
      | some k => (some k, g)
      | none => attempt bits attempts g
    | _, _ => attempt bits attempts g

/-- A new key of `bits` bits. There is none below seventeen bits, where the exponent does not fit, and
above 4096. -/
def PrivateKey.generate? (bits : Nat) (g : StdGen) : Option PrivateKey × StdGen :=
  if bits ≤ 16 ∨ 4096 < bits then (none, g) else PrivateKey.attempt bits 1000 g

end Countersign.Rsa
