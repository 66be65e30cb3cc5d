import Countersign.Time.Clock
import Countersign.Token.User

/-!
# Tokens

An access token carries the user it speaks for, a refresh token carries none. A
token has an id, the text that clients hold, a subject, and the instant from which
on it is no longer accepted.
-/

set_option autoImplicit false

namespace Countersign

inductive TokenKind where
  | access
  | refresh
deriving DecidableEq, Repr

namespace TokenKind

def unauthorizedMessage : TokenKind → String
  | access => "invalid access token"
  | refresh => "invalid refresh token"

def name : TokenKind → String
  | access => "Access"
  | refresh => "Refresh"

end TokenKind

structure Token where
  id : String
  value : String
  subject : String
  user : Option User
  expireTime : Millis

namespace Token

def isRefresh (t : Token) : Bool := t.user.isNone

def kind (t : Token) : TokenKind := if t.isRefresh then .refresh else .access

end Token

end Countersign
