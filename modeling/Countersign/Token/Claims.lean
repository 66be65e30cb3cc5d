import Countersign.Text.Utf8
import Countersign.Token.Basic

/-!
# Token claims

The second part of a token says who issued it for whom, about which subject, and
until when. The instant of expiry stands there twice: in whole seconds, rounded up,
for readers that know no milliseconds, and exactly.
-/

set_option autoImplicit false

namespace Countersign

structure Claims where
  issuer : String
  audience : String
  subject : String
  expirySeconds : Int64
  expireTime : Millis
  issuedAt : Int64
  id : String
  user : Option User := none

namespace Claims

/-- The claims as JSON; a refresh token has no member `user`. -/
def toJson (c : Claims) : Json :=
  .object
    ([("iss", .string c.issuer), ("aud", .string c.audience), ("sub", .string c.subject),
      ("exp", .ofInt64 c.expirySeconds), ("exp_ms", .ofInt64 c.expireTime), ("iat", .ofInt64 c.issuedAt),
      ("jti", .string c.id)] ++
      match c.user with
      | none => []
      | some u => [("user", u.toJson)])

def names : List String := ["iss", "aud", "sub", "exp", "exp_ms", "iat", "jti", "user"]

/-- Reads claims; members with other names are not judged. -/
def ofMembers? (members : List (List Json.StringPart × Json.Node)) : Option Claims := do
  match ← (Json.Node.object members).fields? names with
  | [some iss, some aud, some sub, some exp, some expMs, some iat, some jti, user] =>
    let user ← Json.field? none (Json.Node.nullable? (User.ofNode? 1)) user
    return ⟨← iss.text?, ← aud.text?, ← sub.text?, ← exp.int64?, ← expMs.int64?, ← iat.int64?,
      ← jti.text?, user⟩
  | _ => none

/-- Whether a reader that looks for a time at a node, and finds something else there, has the whole node
behind it when it gives up. It gives up in front of the first entry of a list or an object, behind the
character after half of a surrogate pair, and behind the digit with which an exponent gets too long. -/
def isPassed : Json.Node → Bool
  | .array items => items.isEmpty
  | .object members => members.isEmpty
  | .string parts =>
    (Json.characters? parts).isSome ||
      match parts.getLast? with
      | some (.unit u) =>
        0xd800 ≤ u && u < 0xdc00 && (Json.characters? parts.dropLast).isSome
      | _ => false
  | .number n =>
    match n.exponent with
    | some (false, ds) => n.significand.1 = 0 || Json.ofDigits ds.dropLast < 2147483648
    | _ => true
  | _ => true

/-- A lower bound of time is not used, but where it is given a reader must get past it. -/
def isIdle : Option Json.Node → Bool
  | some x => isPassed x
  | none => true

def ofText? (text : List Char) : Option Claims := do
  match ← Json.Node.ofText? text with
  | .object members =>
    match ← (Json.Node.object members).fields? ["nbf"] with
    | [nbf] => if isIdle nbf then ofMembers? members else none
    | _ => none
  | _ => none

/-- The text of bytes of which not all are UTF-8, from behind the next `skip` bytes on. A malformed
piece becomes an escape that is half of a surrogate pair, so that a string that holds one has no text;
after a backslash it becomes no escape at all. -/
def markedText (escaped : Bool) : Nat → Bytes → List Char
  | _, [] => []
  | skip + 1, _ :: r => markedText escaped skip r
  | 0, a :: r =>
    let (c, rest) := Utf8.first a r
    if Utf8.encodeChar c = a :: r.take rest then c :: markedText (c = '\\' && !escaped) rest r
    else (if escaped then [c] else "\\udc00".toList) ++ markedText false rest r

def textOf (b : Bytes) : List Char := (Utf8.decode? b).getD (markedText false 0 b)

def ofBytes? (b : Bytes) : Option Claims := ofText? (textOf b)

end Claims

end Countersign
