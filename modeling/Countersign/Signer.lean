import Countersign.Account.Basic
import Countersign.Http.Request
import Countersign.Log.Event
import Countersign.Policy.Basic
import Countersign.Random
import Countersign.Text.Integer
import Countersign.Time.Clock

/-!
# Signing requests

A signer builds the canonical request with a fresh nonce and the time, has the
account sign it, and carries id, version, time, nonce and signature in headers.
Clock reading and nonce are supplied by the caller.
-/

set_option autoImplicit false

namespace Countersign

structure Signer where
  names : HeaderNames

structure Signable where
  method : Http.Method
  path : String
  query : Option String := none
  contentType : Option String := none
  body : Bytes := []

def Signable.ofRequest (r : Http.Request) (body : Bytes) : Signable :=
  ⟨r.method, r.target.path, r.target.query, r.contentType?, body⟩

/-- A request on its way out, with the body that it is sent with. -/
structure Outgoing where
  request : Http.Request
  body : Bytes

namespace Outgoing

def signable (m : Outgoing) : Signable := .ofRequest m.request m.body

def write (m : Outgoing) (headers : Http.Headers) : Outgoing :=
  { m with request.headers := headers.foldl (fun h p => h.insert p.1 p.2) m.request.headers }

end Outgoing

namespace Signer

def ofPolicy (p : Policy) : Except SignatureError Signer := do return ⟨← p.headerNames⟩

def canonicalRequest (now : Millis) (nonce : Nonce) (s : Signable) : CanonicalRequest :=
  .of s.method.text s.path nonce.text (Text.ofInt64 now) s.query
    (Body.signedText s.contentType s.body)

def headerValue (s : String) : Except SignatureError Http.HeaderValue :=
  match Http.HeaderValue.ofString? s with
  | some v => .ok v
  | none => .error (.configuration "invalid header value: failed to parse header value")

def signedHeaders (g : Signer) (now : Millis) (nonce : Nonce) (s : Signable) (account : Account) :
    Except SignatureError Http.Headers := do
  let request := canonicalRequest now nonce s
  let signature ← account.sign request
  let accessId ← headerValue account.accessId
  let version ←
    match account.version with
    | none => pure []
    | some v => do pure [(g.names.version, ← headerValue v)]
  let timestamp ← headerValue request.timestamp
  let nonce ← headerValue request.nonce
  let signature ← headerValue signature
  return (g.names.accessId, accessId) :: version ++
    [(g.names.timestamp, timestamp), (g.names.nonce, nonce), (g.names.sign, signature)]

/-- The request with the signature headers in place of any of the same names. -/
def sign (g : Signer) (now : Millis) (nonce : Nonce) (r : Http.Request) (body : Bytes)
    (account : Account) : Except SignatureError Http.Request := do
  let headers ← g.signedHeaders now nonce (.ofRequest r body) account
  return { r with headers := headers.foldl (fun h p => h.insert p.1 p.2) r.headers }

/-- Signs a request where it stands. Nothing is written before all that can fail is done. -/
def signInPlace (g : Signer) (now : Millis) (nonce : Nonce) (account : Account) :
    StateM Outgoing (Except SignatureError Unit) := do
  let m ← get
  match g.signedHeaders now nonce m.signable account with
  | .error e => return .error e
  | .ok headers =>
    set (m.write headers)
    return .ok ()

def events (now : Millis) (nonce : Nonce) (s : Signable) (account : Account) : List Log.Event :=
  let request := canonicalRequest now nonce s
  match account.sign request with
  | .error _ => []
  | .ok _ =>
    [{ level := .trace, target := "keystamp_signature::signer", message := "Signed outbound request",
       fields := [("access_id", account.accessId), ("algorithm", account.algorithm.name),
                  ("method", request.method), ("path", request.path)] }]

end Signer

end Countersign
