import Countersign.Account.Error
import Countersign.Http.Header
import Countersign.Text.Blank

/-!
# Signature header names

Five names made of a prefix and fixed endings. Hyphens at the end of the prefix
do not count. A prefix that makes no header name is a configuration error.
-/

set_option autoImplicit false

namespace Countersign

structure HeaderNames where
  accessId : Http.HeaderName
  version : Http.HeaderName
  timestamp : Http.HeaderName
  nonce : Http.HeaderName
  sign : Http.HeaderName
deriving DecidableEq

namespace HeaderNames

def defaultStem : String := "X-Keystamp"

def stem (configured : String) : String :=
  String.ofList (Text.trimEnd (· = '-') configured.toList)

def ofStem? (configured : String) : Option HeaderNames := do
  let s := stem configured
  let accessId ← Http.HeaderName.ofString? (s ++ "-AccessId")
  let version ← Http.HeaderName.ofString? (s ++ "-SecretVersion")
  let timestamp ← Http.HeaderName.ofString? (s ++ "-Timestamp")
  let nonce ← Http.HeaderName.ofString? (s ++ "-Nonce")
  let sign ← Http.HeaderName.ofString? (s ++ "-Sign")
  return ⟨accessId, version, timestamp, nonce, sign⟩

def ofStem (configured : String) : Except SignatureError HeaderNames :=
  match ofStem? configured with
  | some names => .ok names
  | none =>
    .error (.configuration
      ("invalid header prefix '" ++ stem configured ++ "': invalid HTTP header name"))

end HeaderNames

end Countersign
