import Countersign.Json.Printer
import Countersign.Json.Reader

/-!
# Token headers

The first part of a token is a JSON object that names the algorithm of the
signature. The members that have a meaning must have the right shape even though
nothing but the algorithm is used; all others must be texts.
-/

set_option autoImplicit false

namespace Countersign.Token.Header

open Json (Node)

def algorithm : String := "RS256"

def algorithms : List String :=
  ["HS256", "HS384", "HS512", "ES256", "ES384", "RS256", "RS384", "RS512", "PS256", "PS384", "PS512",
   "EdDSA"]

def common : Json := .object [("typ", .string "JWT"), ("alg", .string algorithm)]

def isOptionalText : Option Node → Bool
  | none => true
  | some .null => true
  | some x => x.text?.isSome

def isOptionalTexts : Option Node → Bool
  | none => true
  | some .null => true
  | some (.array items) => items.all fun x => x.text?.isSome
  | some _ => false

def memberText? : Option Node → Option String := (Option.bind · (·.text?))

def curves : List String := ["P-256", "P-384", "P-521", "Ed25519"]

def isKeyOfType (kty crv x y n e k : Option Node) : Bool :=
  let isText (v : Option Node) : Bool := (memberText? v).isSome
  let onCurve : Bool := (memberText? crv).any curves.contains
  match memberText? kty with
  | some "EC" => onCurve && isText x && isText y
  | some "RSA" => isText n && isText e
  | some "oct" => isText k
  | some "OKP" => onCurve && isText x
  | _ => false

def isOptionalKey : Option Node → Bool
  | none => true
  | some .null => true
  | some (.object members) =>
    match (Node.object members).fields?
      ["use", "key_ops", "alg", "kid", "x5u", "x5c", "x5t", "x5t#S256", "kty", "crv", "x", "y", "n", "e",
       "k"] with
    | some [use, ops, alg, kid, x5u, x5c, x5t, x5t256, kty, crv, x, y, n, e, k] =>
      [use, alg, kid, x5u, x5t, x5t256].all isOptionalText && [ops, x5c].all isOptionalTexts &&
        isKeyOfType kty crv x y n e k
    | _ => false
  | some _ => false

def textMembers : List String :=
  ["typ", "cty", "jku", "kid", "x5u", "x5t", "x5t#S256", "enc", "zip", "url", "nonce"]

def listMembers : List String := ["x5c", "crit"]

def knownMembers : List String := ["alg", "jwk"] ++ listMembers ++ textMembers

/-- The name of an algorithm: a text, or an object with nothing but that name over null. -/
def algorithmName? : Node → Option String
  | .object [(name, .null)] => Json.textOfParts? name
  | x => x.text?

def algorithmOf? (x : Node) : Option String := do
  match x, ← x.fields? knownMembers with
  | .object members, some alg :: jwk :: rest =>
    let name ← algorithmName? alg
    let extrasAreTexts := members.all fun m =>
      (Json.textOfParts? m.1).any knownMembers.contains || m.2.text?.isSome
    if algorithms.contains name && isOptionalKey jwk &&
        (rest.take listMembers.length).all isOptionalTexts &&
        (rest.drop listMembers.length).all isOptionalText && extrasAreTexts then some name
    else none
  | _, _ => none

end Countersign.Token.Header
