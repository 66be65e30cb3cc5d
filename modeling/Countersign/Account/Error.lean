import Countersign.Account.Algorithm

/-!
# Signature errors

Why a request cannot be signed, or is not accepted. A rejection shows clients one
generic message; its reason stays on the server.
-/

set_option autoImplicit false

namespace Countersign

inductive SignatureError where
  | badRequest (reason : String)
  | keyMismatch (algorithm : Algorithm)
  | invalidKey (detail : String)
  | crypto (detail : String)
  | configuration (detail : String)
deriving DecidableEq, Repr

namespace SignatureError

def generic : String := "sign verify error"

def message : SignatureError → String
  | badRequest _ => generic
  | keyMismatch a => "Key material does not match algorithm " ++ a.name
  | invalidKey t => "Invalid key: " ++ t
  | crypto t => "Cryptographic operation failed: " ++ t
  | configuration t => "Configuration error: " ++ t

def category : SignatureError → String
  | badRequest _ => "bad_request"
  | keyMismatch _ => "key_mismatch"
  | invalidKey _ => "invalid_key"
  | crypto _ => "crypto"
  | configuration _ => "configuration"

def reason? : SignatureError → Option String
  | badRequest r => some r
  | _ => none

def isBadRequest (e : SignatureError) : Bool := e.reason?.isSome

end SignatureError

end Countersign
