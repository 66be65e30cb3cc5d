import Countersign.Token.Mint

/-!
# The token registry

A registry issues tokens and binds each of them in a store; a token is accepted
while it is genuine, its time is not over and the store binds its id to its
subject. Unbinding revokes a token at once.
-/

set_option autoImplicit false

namespace Countersign.Registry

open BindingStore

variable {σ : Type} [BindingStore σ]

def orFailure {α : Type} : Except StoreFailure α → Except TokenFailure α
  | .ok x => .ok x
  | .error e => .error (.store e)

/-- The time that is left until an instant; none if it is over. -/
def remaining (now expireTime : Millis) : Duration :=
  let left := min (max (expireTime.toInt - now.toInt) 0) Int64.maxValue.toInt
  Duration.ofMillis (UInt64.ofNat left.toNat)

def bind (now : Millis) (issued : Except TokenFailure Token) (s : σ) : Except TokenFailure Token × σ :=
  match issued with
  | .error e => (.error e, s)
  | .ok t =>
    let (answer, s) := put s t.id t.subject (remaining now t.expireTime)
    ((orFailure answer).map fun _ => t, s)

def issueAccess (m : Mint) (now : Millis) (seed : Nonce) (user : User) (ttl : Option Duration) (s : σ) :
    Except TokenFailure Token × σ :=
  bind now (m.issueAccess now seed user ttl) s

def issueRefresh (m : Mint) (now : Millis) (seed : Nonce) (userId : String) (ttl : Option Duration)
    (s : σ) : Except TokenFailure Token × σ :=
  bind now (m.issueRefresh now seed userId ttl) s

def validate (m : Mint) (now : Millis) (kind : TokenKind) (value : String) (s : σ) :
    Except TokenFailure Token × σ :=
  match m.parse now kind value with
  | .error e => (.error e, s)
  | .ok t =>
    match get s t.id with
    | (.error e, s) => (.error (.store e), s)
    | (.ok bound, s) =>
      if bound = some t.subject then (.ok t, s)
      else (.error (.notBound kind t.id t.subject bound), s)

/-- Unbinds a token, whether its time is over or not, and returns it. -/
def revoke (m : Mint) (kind : TokenKind) (value : String) (s : σ) : Except TokenFailure Token × σ :=
  match m.decode kind value with
  | .error f => (.error (.flawed f), s)
  | .ok t =>
    let (answer, s) := remove s t.id
    ((orFailure answer).map fun _ => t, s)

def revokeAll (subject : String) (s : σ) : Except TokenFailure Nat × σ :=
  let (answer, s) := removeSubject s subject
  (orFailure answer, s)

def events {α : Type} (success : α → Log.Event) : Except TokenFailure α → List Log.Event
  | .ok x => [success x]
  | .error e => e.events

def issued (t : Token) : Log.Event where
  level := .info
  target := "keystamp_token::service"
  message :=
    match t.kind with
    | .access => "Issued access token"
    | .refresh => "Issued refresh token"
  fields := [("jti", t.id), ("subject", t.subject)]

def revoked (t : Token) : Log.Event where
  level := .info
  target := "keystamp_token::service"
  message := "Revoked token"
  fields := [("jti", t.id), ("kind", t.kind.name), ("subject", t.subject)]

def revokedAll (subject : String) (count : Nat) : Log.Event where
  level := .info
  target := "keystamp_token::service"
  message := "Revoked all tokens"
  fields := [("revoked", String.ofList (Nat.toDigits 10 count)), ("subject", subject)]

end Countersign.Registry
