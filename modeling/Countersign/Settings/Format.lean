import Countersign.Json.Reader
import Countersign.Text.Utf8
import Countersign.Toml.Document
import Countersign.Yaml.Document

/-!
# Formats of settings files

A file is TOML, YAML or JSON, as its extension says. Its text is a table; a byte
order mark before it is not part of it.
-/

set_option autoImplicit false

namespace Countersign

inductive SettingsFormat where
  | toml
  | yaml
  | json
deriving DecidableEq, Repr

namespace Setting

mutual

/-- The value of JSON. An integer past the signed ones is a double. -/
def ofJson : Json → Setting
  | .null => .absent
  | .bool b => .bool b
  | .number (.natural n) =>
    if n.toNat < 9223372036854775808 then .integer n.toInt64 else .double n.toFloat
  | .number (.negative n) => .integer n
  | .number (.double x) => .double x
  | .string s => .text s
  | .array xs => .list (ofJsonItems xs)
  | .object ms => .table (ofJsonMembers ms)

def ofJsonItems : List Json → List Setting
  | [] => []
  | x :: r => ofJson x :: ofJsonItems r

def ofJsonMembers : List (String × Json) → List (String × Setting)
  | [] => []
  | (name, x) :: r => (name, ofJson x) :: ofJsonMembers r

end

end Setting

namespace SettingsFormat

/-- The extension of a file name: what follows its last point, unless the name begins there. -/
def extension? (name : List Char) : Option String :=
  match (name.reverse.dropWhile (· ≠ '.')) with
  | _ :: _ :: _ => some (String.ofList (name.reverse.takeWhile (· ≠ '.')).reverse)
  | _ => none

def lastName? (path : String) : Option (List Char) :=
  ((path.toList.splitOn '/').filter fun name => name ≠ [] ∧ name ≠ ['.']).getLast?.filter
    (· ≠ ['.', '.'])

def ofPath? (path : String) : Option SettingsFormat :=
  match (lastName? path).bind extension? with
  | some "toml" => some toml
  | some "yaml" => some yaml
  | some "yml" => some yaml
  | some "json" => some json
  | _ => none

def value? (text : List Char) : SettingsFormat → Option Setting
  | toml => (Toml.settings? text).map .table
  | yaml => Yaml.settings? text
  | json => (Json.parse? (String.ofList text)).map Setting.ofJson

def withoutMark : Bytes → Bytes
  | 0xef :: 0xbb :: 0xbf :: r => r
  | b => b

def entries? (contents : Bytes) (format : SettingsFormat) : Option (List (String × Setting)) :=
  match format.value? (Utf8.decodeLossy (withoutMark contents)) with
  | some (.table es) => some es
  | _ => none

end SettingsFormat

end Countersign
