import Countersign.Account.Signature
import Countersign.Text.Quoted

/-!
# Accounts

A party that signs requests: its id, optionally the version of its key, the key
and the algorithm.
-/

set_option autoImplicit false

namespace Countersign

structure Account where
  accessId : String
  version : Option String := none
  key : KeyMaterial
  algorithm : Algorithm
deriving DecidableEq

namespace Account

def sign (a : Account) (r : CanonicalRequest) : Except SignatureError String :=
  a.algorithm.sign r a.key

def verify (a : Account) (r : CanonicalRequest) (signature : String) : Except SignatureError Bool :=
  a.algorithm.verify r a.key signature

def describe (a : Account) : String :=
  "SecretAccount \x7b access_id: " ++ Text.quoted a.accessId ++ ", secret_key_version: " ++
    Text.quotedOption a.version ++ ", key: KeyMaterial(" ++ Text.quoted a.key.kind ++
    "), algorithm: " ++ Text.quoted a.algorithm.name ++ " \x7d"

end Account

end Countersign
