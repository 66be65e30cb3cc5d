import Countersign.Binding.Store
import Countersign.Log.Event
import Countersign.Text.Integer
import Countersign.Text.Quoted
import Countersign.Token.Basic
import Countersign.Token.Error

/-!
# Failures of token operations

Why a text is no token of this issuer and of the wanted kind, and why an operation
gives nothing: each cause with the error that is told and the events that are
logged.
-/

set_option autoImplicit false

namespace Countersign

/-- Why a text is not accepted as a token, in the order of the checks. -/
inductive Flaw where
  | notThreeParts
  | notBase64
  | notJson
  | wrongAlgorithm
  | wrongSignature
  | missingExpiry
  | wrongIssuer
  | wrongAudience
  | missingUser
  | unexpectedUser
deriving DecidableEq, Repr

namespace Flaw

def message : Flaw → String
  | notThreeParts => "InvalidToken"
  | notBase64 => "Base64 error"
  | notJson => "JSON error"
  | wrongAlgorithm => "InvalidAlgorithm"
  | wrongSignature => "InvalidSignature"
  | missingExpiry => "Missing required claim: exp"
  | wrongIssuer => "InvalidIssuer"
  | wrongAudience => "InvalidAudience"
  | missingUser => "missing user claim"
  | unexpectedUser => "access token presented as refresh token"

def error (f : Flaw) : TokenError := .invalidToken f.message

def isOfKind : Flaw → Bool
  | missingUser => true
  | unexpectedUser => true
  | _ => false

end Flaw

inductive TokenFailure where
  | flawed (flaw : Flaw)
  | expired (id : String) (expireTime : Millis)
  /-- The id is bound to something else than the subject, or to nothing. -/
  | notBound (kind : TokenKind) (id subject : String) (bound : Option String)
  | store (failure : StoreFailure)
  | signing
deriving DecidableEq, Repr

namespace TokenFailure

def error : TokenFailure → TokenError
  | flawed f => f.error
  | expired _ _ => .expired
  | notBound kind _ _ _ => .unauthorized kind.unauthorizedMessage
  | store f => .store f.message
  | signing => .serialization "failed to sign token: Signing failed"

def events : TokenFailure → List Log.Event
  | flawed f =>
    if f.isOfKind then []
    else [⟨.debug, "keystamp_token::codec", "Token decoding failed", [("error", f.message)]⟩]
  | expired id t =>
    [⟨.debug, "keystamp_token::codec", "Token expired", [("expire_time", Text.ofInt64 t), ("jti", id)]⟩]
  | notBound _ id subject bound =>
    [⟨.debug, "keystamp_token::service", "Token has no matching binding",
      [("bound", Text.quotedOption bound), ("jti", id), ("subject", subject)]⟩]
  | _ => []

end TokenFailure

end Countersign
