import Countersign.Json.Reader

/-!
# Signature algorithms

Keyed digests with a shared secret, and RSA signatures.
-/

set_option autoImplicit false

namespace Countersign

inductive Algorithm where
  | hmacSha256
  | sha256WithRsa
deriving DecidableEq, Repr, Inhabited

namespace Algorithm

def name : Algorithm → String
  | hmacSha256 => "HmacSHA256"
  | sha256WithRsa => "SHA256withRSA"

def ofName? (s : String) : Option Algorithm :=
  if s = "HmacSHA256" ∨ s = "hmac-sha256" then some hmacSha256
  else if s = "SHA256withRSA" ∨ s = "sha256-with-rsa" then some sha256WithRsa
  else none

/-- Reads an algorithm: its name, or an object whose only member is the name with a null. -/
def ofNode? : Json.Node → Option Algorithm
  | .object [(key, .null)] => (Json.textOfParts? key).bind ofName?
  | x => x.text?.bind ofName?

theorem ofName?_name (a : Algorithm) : ofName? a.name = some a := by
  cases a <;> decide

end Algorithm

end Countersign
