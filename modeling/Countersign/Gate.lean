import Countersign.Encoding.Percent
import Countersign.Http.Response
import Countersign.Verifier.Basic

/-!
# The gate in front of a handler

Requests pass to the handler when they need no signature or carry a right one;
all others get one and the same rejection. The headers are checked first, so a
body is read only for a request that may still pass, only when it is signed, and
only up to the limit of the policy. The handler receives the request as it came,
with the account that signed it.
-/

set_option autoImplicit false

namespace Countersign

inductive Passage where
  | forwarded (request : Http.Request) (body : Http.Body) (account : Option Account)
  | rejected (echo : Option Echo)

structure GateResult where
  passage : Passage
  ledger : Option NonceLedger
  readBody : Bool
  events : List Log.Event

namespace Gate

def target : String := "keystamp_signature::tower::service"

def rejectionEvent (why : Refusal) (path : String) : Log.Event :=
  ⟨.debug, target, "Rejected request signature",
    [("reason", why.error.reason?.getD "internal"), ("category", why.error.category),
     ("path", path)]⟩

/-- The body that verification looks at, and the body that is passed on: a signed body is read
up to the limit, any other stays as it is. -/
def buffer? (p : Policy) (r : Http.Request) (body : Http.Body) :
    Option (Option Bytes × Http.Body) :=
  if Verifier.requiresBody r then
    (body.collect? p.maxBodyBytes.toNat).map fun b => (some b, .ofBytes b)
  else some (none, body)

/-- Lets a request pass or rejects it. The clock is read for the first checks and again when the
body is there. -/
def call (v : Verifier) (first second : Millis) (ledger : Option NonceLedger) (r : Http.Request)
    (body : Http.Body) : GateResult :=
  let path := r.target.path
  if v.skips r.method path then ⟨.forwarded r body none, ledger, false, []⟩
  else
    match v.precheck first r with
    | .error why => ⟨.rejected why.echo?, ledger, false, [rejectionEvent why path]⟩
    | .ok () =>
      let reads := Verifier.requiresBody r
      match buffer? v.policy r body with
      | none =>
        ⟨.rejected none, ledger, reads, [⟨.debug, target, "Failed to buffer signed request body", []⟩]⟩
      | some (buffered, body) =>
        let (verdict, ledger) := v.verify second ledger r buffered
        let events := verdict.events r.method.text path
        match verdict with
        | .refused why =>
          ⟨.rejected why.echo?, ledger, reads, events ++ [rejectionEvent why path]⟩
        | _ => ⟨.forwarded r body verdict.account?, ledger, reads, events⟩

/-- The text of an echo as a header value: control characters and all beyond ASCII are escaped. -/
def echoValue (s : String) : String :=
  String.ofList (Percent.encode Percent.isControl (Utf8.ofString s))

def textHeader : String := "x-signature-debug-text"

def queryHeader : String := "x-signature-debug-query"

def echoHeader? (name text : String) : Option (String × String) :=
  (Http.HeaderValue.ofString? (echoValue text)).map fun _ => (name, echoValue text)

def echoHeaders : Option Echo → List (String × String)
  | none => []
  | some e =>
    (echoHeader? textHeader e.signText).toList ++ (echoHeader? queryHeader e.query).toList

def rejection (echo : Option Echo) : Http.Response where
  status := 400
  headers := ("content-type", "application/json") :: echoHeaders echo
  body := "\x7b\"error\":\"bad_request\",\"error_description\":\"" ++ SignatureError.generic ++ "\"\x7d"

abbrev Handler (σ ε : Type) :=
  σ → Http.Request → Http.Body → Option Account → Except ε Http.Response × σ

/-- The answer to a request from the gate or from the handler behind it, and the handler
afterwards. -/
def serve {σ ε : Type} (handler : Handler σ ε) (s : σ) (v : Verifier) (first second : Millis)
    (ledger : Option NonceLedger) (r : Http.Request) (body : Http.Body) :
    Except ε Http.Response × σ :=
  match (call v first second ledger r body).passage with
  | .forwarded r body account => handler s r body account
  | .rejected echo => (.ok (rejection echo), s)

end Gate

end Countersign
