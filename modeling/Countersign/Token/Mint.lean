import Countersign.Digest.Sha256
import Countersign.Encoding.Base64
import Countersign.Encoding.Hex
import Countersign.Random
import Countersign.Token.Claims
import Countersign.Token.Failure
import Countersign.Token.Header
import Countersign.Token.KeyPair

/-!
# Minting tokens

A mint issues tokens under a policy and reads back what it issued. The text of a
token has three parts with a dot between them: header, claims and signature, each
in Base64; the signature is over the first two with their dot. Reading checks the
signature before it looks at the claims, and compares the instant of expiry last.
-/

set_option autoImplicit false

namespace Countersign

structure Mint where
  policy : TokenPolicy
  keys : KeyPair

namespace Mint

/-- The instant `ttl` after `now`; parts of a millisecond are dropped. -/
def expiryOf (now : Millis) (ttl : Duration) : Millis := Millis.clamp (now.toInt + ttl.clampedMillis)

def ceilSeconds (t : Millis) : Int64 := Int64.ofInt ((t.toInt + 999) / 1000)

def floorSeconds (t : Millis) : Int64 := Int64.ofInt (t.toInt / 1000)

/-- The id of a token: a digest of random letters, the instant and the subject. -/
def tokenId (seed : Nonce) (now : Millis) (subject : String) : String :=
  String.ofList
    (Hex.encode
      (Sha256.digest (Utf8.ofString (seed.text ++ "@" ++ Text.ofInt64 now ++ "#" ++ subject))))

def claims (m : Mint) (now : Millis) (seed : Nonce) (subject : String) (user : Option User)
    (ttl : Duration) : Claims :=
  let expireTime := expiryOf now ttl
  { issuer := m.policy.issuer, audience := m.policy.audience, subject := subject,
    expirySeconds := ceilSeconds expireTime, expireTime := expireTime, issuedAt := floorSeconds now,
    id := tokenId seed now subject, user := user }

def part (b : Bytes) : List Char := Base64.encode .urlSafe b

def signedParts (c : Claims) : List Char :=
  part (Utf8.encode Token.Header.common.print) ++ '.' :: part (Utf8.encode c.toJson.print)

def write (k : SigningKey) (c : Claims) : Except Rsa.SigningFailure String := do
  let message := signedParts c
  let signature ← k.sign (Utf8.encode message)
  return String.ofList (message ++ '.' :: part signature)

def issue (m : Mint) (now : Millis) (seed : Nonce) (subject : String) (user : Option User)
    (ttl : Duration) : Except TokenFailure Token :=
  let c := m.claims now seed subject user ttl
  match m.keys.signing.map (write · c) with
  | some (.ok value) => .ok ⟨c.id, value, c.subject, c.user, c.expireTime⟩
  | _ => .error .signing

def issueAccess (m : Mint) (now : Millis) (seed : Nonce) (user : User) (ttl : Option Duration) :
    Except TokenFailure Token :=
  m.issue now seed user.id (some user) (ttl.getD m.policy.accessTtl)

def issueRefresh (m : Mint) (now : Millis) (seed : Nonce) (userId : String) (ttl : Option Duration) :
    Except TokenFailure Token :=
  m.issue now seed userId none (ttl.getD m.policy.refreshTtl)

def splitLast? (cs : List Char) : Option (List Char × List Char) :=
  let tail := cs.reverse.takeWhile (· ≠ '.')
  match cs.reverse.drop tail.length with
  | '.' :: rest => some (rest.reverse, tail.reverse)
  | _ => none

def orFlaw {α : Type} (flaw : Flaw) : Option α → Except Flaw α
  | some x => .ok x
  | none => .error flaw

def bytesOf (cs : List Char) : Except Flaw Bytes := orFlaw .notBase64 (Base64.decode? .urlSafe cs)

def algorithmOf (header : List Char) : Except Flaw String := do
  let b ← bytesOf header
  orFlaw .notJson ((Utf8.decode? b).bind fun cs => (Json.Node.ofText? cs).bind Token.Header.algorithmOf?)

def verifiedClaims (keys : KeyPair) (value : String) : Except Flaw Claims := do
  let (message, signature) ← orFlaw .notThreeParts (splitLast? value.toList)
  let (header, payload) ← orFlaw .notThreeParts (splitLast? message)
  let algorithm ← algorithmOf header
  if algorithm ≠ Token.Header.algorithm then throw .wrongAlgorithm
  let signature ← bytesOf signature
  if !keys.verifying.any (·.verify (Utf8.encode message) signature) then throw .wrongSignature
  let b ← bytesOf payload
  orFlaw .notJson (Claims.ofBytes? b)

def genuineClaims (m : Mint) (value : String) : Except Flaw Claims := do
  let c ← verifiedClaims m.keys value
  if c.expirySeconds < 0 then throw .missingExpiry
  if c.issuer ≠ m.policy.issuer then throw .wrongIssuer
  if c.audience ≠ m.policy.audience then throw .wrongAudience
  return c

/-- The token that a text is, whether its time is over or not. -/
def decode (m : Mint) (kind : TokenKind) (value : String) : Except Flaw Token := do
  let c ← m.genuineClaims value
  match kind, c.user with
  | .access, none => throw .missingUser
  | .refresh, some _ => throw .unexpectedUser
  | _, _ => return ⟨c.id, value, c.subject, c.user, c.expireTime⟩

/-- The token that a text is, if its time is not over. -/
def parse (m : Mint) (now : Millis) (kind : TokenKind) (value : String) : Except TokenFailure Token :=
  match m.decode kind value with
  | .error f => .error (.flawed f)
  | .ok t => if t.expireTime ≤ now then .error (.expired t.id t.expireTime) else .ok t

def describe (m : Mint) (clock : ManualClock) : String :=
  "TokenCodec \x7b issuer: " ++ Text.quoted m.policy.issuer ++ ", audience: " ++
    Text.quoted m.policy.audience ++ ", clock: ManualClock \x7b millis: " ++ Text.ofInt64 clock.now ++
    " \x7d, .. \x7d"

end Mint

end Countersign
