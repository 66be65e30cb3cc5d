import Countersign.Account.Basic
import Countersign.Log.Event

/-!
# Verdicts

The outcome of verifying a request: it needs no signature, it is signed by an
account, or it is refused for a stated cause. Refusals are told to clients in
one way; the cause decides what the server's log says.
-/

set_option autoImplicit false

namespace Countersign

/-- What the server signed, told to clients outside production. -/
structure Echo where
  signText : String
  query : String
deriving DecidableEq, Repr

/-- Why a request is refused, in the order of the checks. -/
inductive Refusal where
  | missingAccessId
  | missingTimestamp
  | unreadableTimestamp
  | skewed (skew window : Int)
  | missingNonce
  | missingSignature
  | lookupFailed (accessId : String) (error : SignatureError)
  | unknownAccount (accessId : String)
  /-- The signature is wrong; or it could not be checked, for the given error. -/
  | mismatch (accessId : String) (error : Option SignatureError) (echo : Option Echo)
  | replayed (accessId : String)
deriving DecidableEq, Repr

namespace Refusal

def error : Refusal → SignatureError
  | missingAccessId => .badRequest "missing access id header"
  | missingTimestamp => .badRequest "missing timestamp header"
  | unreadableTimestamp => .badRequest "unparseable timestamp"
  | skewed k w =>
    .badRequest ("timestamp skew " ++ toString k ++ "ms exceeds " ++ toString w ++ "ms")
  | missingNonce => .badRequest "missing nonce header"
  | missingSignature => .badRequest "missing sign header"
  | lookupFailed _ e => e
  | unknownAccount id => .badRequest ("unknown account " ++ id)
  | mismatch _ _ _ => .badRequest "signature mismatch"
  | replayed _ => .badRequest "nonce replayed"

def echo? : Refusal → Option Echo
  | mismatch _ _ echo => echo
  | _ => none

def events : Refusal → List Log.Event
  | lookupFailed id e =>
    [⟨.warn, "keystamp_signature::verifier", "Secret account lookup failed",
      [("access_id", id), ("error", e.message)]⟩]
  | mismatch id (some e) _ =>
    [⟨.warn, "keystamp_signature::verifier", "Signature verification errored",
      [("access_id", id), ("error", e.message)]⟩]
  | replayed id =>
    [⟨.warn, "keystamp_signature::verifier", "Replayed nonce rejected", [("access_id", id)]⟩]
  | _ => []

end Refusal

inductive Verdict where
  | skipped
  | verified (account : Account)
  | refused (why : Refusal)
deriving DecidableEq

namespace Verdict

def account? : Verdict → Option Account
  | verified a => some a
  | _ => none

def events (method path : String) : Verdict → List Log.Event
  | skipped =>
    [⟨.debug, "keystamp_signature::verifier", "Signature verification skipped",
      [("method", method), ("path", path)]⟩]
  | verified a =>
    [⟨.debug, "keystamp_signature::verifier", "Signature verified",
      [("access_id", a.accessId), ("algorithm", a.algorithm.name), ("path", path)]⟩]
  | refused why => why.events

end Verdict

end Countersign
