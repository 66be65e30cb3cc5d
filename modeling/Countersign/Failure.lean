import Countersign.Account.Error
import Countersign.Http.Response
import Countersign.Json.Printer
import Countersign.Settings.Error
import Countersign.Token.Error

/-!
# Failures

All errors of the library as one type, with the status and the answer that a client
gets. What is the server's fault is not told to clients.
-/

set_option autoImplicit false

namespace Countersign

inductive Failure where
  | signature (e : SignatureError)
  | token (e : TokenError)
  | settings (e : SettingsError)
  | io (detail : String)
deriving DecidableEq, Repr

namespace Failure

def message : Failure → String
  | signature e => e.message
  | token e => e.message
  | settings e => e.message
  | io t => "IO error: " ++ t

def category : Failure → String
  | signature e => e.category
  | token e => e.category
  | settings _ => "configuration"
  | io _ => "io"

def status : Failure → Nat
  | signature e => if e.isBadRequest then 400 else 500
  | token e => if e.isClientError then 401 else 500
  | _ => 500

def shown (f : Failure) : String × String :=
  if f.status = 400 then ("bad_request", f.message)
  else if f.status = 401 then ("invalid_token", f.message)
  else ("server_error", "internal error")

def response (f : Failure) : Http.Response where
  status := f.status
  headers := [("content-type", "application/json")]
  body :=
    (Json.object
      [("error", .string f.shown.1), ("error_description", .string f.shown.2)]).toText

end Failure

end Countersign
