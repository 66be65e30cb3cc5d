import Countersign.Account.Directory
import Countersign.Http.Request
import Countersign.Nonce.Ledger
import Countersign.Policy.Basic
import Countersign.Text.Integer
import Countersign.Time.Clock
import Countersign.Verifier.Verdict

/-!
# Verifying requests

The checks run in a fixed order, and the first that fails decides: the headers,
the age of the timestamp, the account, the signature over the request as it
arrived, and last the nonce, which is recorded only when all else is right.
-/

set_option autoImplicit false

namespace Countersign

structure Verifier where
  policy : Policy
  names : HeaderNames
  resolver : Resolver

structure SignedHeaders where
  accessId : String
  timestamp : String
  nonce : String
  signature : String
deriving DecidableEq, Repr

namespace Verifier

def ofPolicy (p : Policy) (resolver : Resolver) : Except SignatureError Verifier := do
  return ⟨p, ← p.headerNames, resolver⟩

def initialLedger (p : Policy) : Option NonceLedger := if p.replayProtection then some {} else none

/-- Whether a request needs no signature: preflight requests and open paths. -/
def skips (v : Verifier) (method : Http.Method) (path : String) : Bool :=
  method.text == "OPTIONS" || v.policy.allows path

def requiresBody (r : Http.Request) : Bool := Body.participates r.contentType?

/-- How far a sent time is from a clock reading, in milliseconds, at most 2^63 − 1. -/
def skew (now sent : Millis) : Int := min ((now.toInt - sent.toInt).natAbs : Int) Int64.maxValue.toInt

def checkTimestamp (window : Duration) (now : Millis) (timestamp : String) : Except Refusal Unit :=
  match Text.int64? (Text.trim timestamp.toList) with
  | none => .error .unreadableTimestamp
  | some sent =>
    if window.clampedMillis < skew now sent then
      .error (.skewed (skew now sent) window.clampedMillis)
    else .ok ()

def require (why : Refusal) : Option String → Except Refusal String
  | some s => .ok s
  | none => .error why

def signedHeaders (v : Verifier) (now : Millis) (h : Http.Headers) :
    Except Refusal SignedHeaders := do
  let accessId ← require .missingAccessId ((h.text? v.names.accessId).filter (· ≠ ""))
  let timestamp ← require .missingTimestamp (h.text? v.names.timestamp)
  checkTimestamp v.policy.window now timestamp
  let nonce ← require .missingNonce ((h.text? v.names.nonce).filter (· ≠ ""))
  let signature ← require .missingSignature (h.text? v.names.sign)
  return ⟨accessId, timestamp, nonce, signature⟩

/-- The canonical request as it arrived, with the nonce and the time from its headers. -/
def canonicalRequest (r : Http.Request) (body : Option Bytes) (h : SignedHeaders) :
    CanonicalRequest :=
  .of r.method.text r.target.path h.nonce h.timestamp r.target.query
    (body.bind (Body.signedText r.contentType?))

def echo? (v : Verifier) (a : Account) (r : CanonicalRequest) : Option Echo :=
  if v.policy.production then none else some ⟨a.algorithm.canonicalText r, r.query.getD ""⟩

def authenticate (v : Verifier) (r : Http.Request) (body : Option Bytes) (h : SignedHeaders) :
    Except Refusal Account := do
  let request := canonicalRequest r body h
  match v.resolver h.accessId (r.headers.text? v.names.version) with
  | .error e => .error (.lookupFailed h.accessId e)
  | .ok none => .error (.unknownAccount h.accessId)
  | .ok (some a) =>
    match a.verify request h.signature with
    | .ok true => .ok a
    | .ok false => .error (.mismatch h.accessId none (v.echo? a request))
    | .error e => .error (.mismatch h.accessId (some e) (v.echo? a request))

def recordNonce (v : Verifier) (ledger : Option NonceLedger) (h : SignedHeaders) :
    Bool × Option NonceLedger :=
  match ledger with
  | none => (true, none)
  | some l =>
    let (fresh, l) := l.checkAndRecord h.accessId h.nonce v.policy.replayTtl
    (fresh, some l)

/-- Verifies a request at a clock reading, and records its nonce. -/
def verify (v : Verifier) (now : Millis) (ledger : Option NonceLedger) (r : Http.Request)
    (body : Option Bytes) : Verdict × Option NonceLedger :=
  if v.skips r.method r.target.path then (.skipped, ledger)
  else
    match v.signedHeaders now r.headers with
    | .error why => (.refused why, ledger)
    | .ok h =>
      match v.authenticate r body h with
      | .error why => (.refused why, ledger)
      | .ok a =>
        let (fresh, ledger) := v.recordNonce ledger h
        (if fresh then .verified a else .refused (.replayed h.accessId), ledger)

def precheck (v : Verifier) (now : Millis) (r : Http.Request) : Except Refusal Unit :=
  if v.skips r.method r.target.path then .ok ()
  else do let _ ← v.signedHeaders now r.headers

end Verifier

end Countersign
