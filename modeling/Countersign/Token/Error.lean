/-!
# Token errors

Why a token is not issued or not accepted. The first three are the client's
fault, the others the server's.
-/

set_option autoImplicit false

namespace Countersign

inductive TokenError where
  | expired
  /-- The token is right but no longer bound. -/
  | unauthorized (detail : String)
  | invalidToken (detail : String)
  | invalidKey (detail : String)
  | store (detail : String)
  | serialization (detail : String)
deriving DecidableEq, Repr

namespace TokenError

def message : TokenError → String
  | expired => "Token expired"
  | unauthorized t => "Unauthorized: " ++ t
  | invalidToken t => "Invalid token: " ++ t
  | invalidKey t => "Invalid key: " ++ t
  | store t => "Binding store error: " ++ t
  | serialization t => "Serialization error: " ++ t

def category : TokenError → String
  | expired => "expired"
  | unauthorized _ => "unauthorized"
  | invalidToken _ => "invalid_token"
  | invalidKey _ => "key"
  | store _ => "store"
  | serialization _ => "serialization"

def isExpired : TokenError → Bool
  | expired => true
  | _ => false

def isClientError : TokenError → Bool
  | expired => true
  | unauthorized _ => true
  | invalidToken _ => true
  | _ => false

end TokenError

end Countersign
