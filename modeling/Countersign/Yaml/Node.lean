import Countersign.Decimal.Reading
import Countersign.Encoding.Hex
import Countersign.Settings.Value

/-!
# YAML nodes

A node is a scalar, a list or a mapping. A scalar without quotes is null, a truth
value or a number if it looks like one; a tag may say what it is. Only scalars are
keys, each once, and a key of settings is a text, a truth value or a number.
-/

set_option autoImplicit false

namespace Countersign.Yaml

inductive Scalar where
  | null
  | bool (b : Bool)
  | integer (n : Int64)
  | double (text : String)
  | text (s : String)
deriving DecidableEq, Repr

namespace Scalar

def inBase? (base : Nat) (cs : List Char) : Option Int :=
  let (negative, ds) :=
    match cs with
    | '-' :: r => (true, r)
    | '+' :: r => (false, r)
    | _ => (false, cs)
  let size := ds.foldlM (fun n c => do
    let v ← Hex.value? c
    if v < base then some (n * base + v) else none) 0
  if ds = [] then none else size.map fun n : Nat => if negative then -(n : Int) else n

/-- An integer in base sixteen after `0x`, in base eight after `0o`, and else in base ten. -/
def integer? (cs : List Char) : Option Int64 :=
  let n :=
    match cs with
    | '0' :: 'x' :: r => inBase? 16 r
    | '0' :: 'o' :: r => inBase? 8 r
    | _ => Text.int? cs
  n.bind Text.toInt64?

def namedDoubles : List String :=
  [".inf", ".Inf", ".INF", "+.inf", "+.Inf", "+.INF", "-.inf", "-.Inf", "-.INF", ".nan", ".NaN", ".NAN"]

def isDouble (cs : List Char) : Bool :=
  namedDoubles.contains (String.ofList cs) || (cs.any Char.isDigit && (Decimal.double? cs).isSome)

def ofPlain (cs : List Char) : Scalar :=
  let s := String.ofList cs
  if ["", "~", "null"].contains s then .null
  else if s = "true" then .bool true
  else if s = "false" then .bool false
  else
    match integer? cs with
    | some n => .integer n
    | none => if isDouble cs then .double s else .text s

/-- What a scalar without quotes is under a tag. What does not fit its tag is null. -/
def ofTagged (tag : String) (cs : List Char) : Scalar :=
  let s := String.ofList cs
  match tag with
  | "!!bool" => if s = "true" then .bool true else if s = "false" then .bool false else .null
  | "!!int" => ((Text.int64? cs).map .integer).getD .null
  | "!!float" => if isDouble cs then .double s else .null
  | "!!null" => .null
  | _ => .text s

def key? : Scalar → Option String
  | null => none
  | bool b => some (if b then "true" else "false")
  | integer n => some (Text.ofInt64 n)
  | double s => some s
  | text s => some s

def toSetting? : Scalar → Option Setting
  | null => some .absent
  | bool b => some (.bool b)
  | integer n => some (.integer n)
  | double s => (Decimal.double? s.toList).map .double
  | text s => some (.text s)

end Scalar

inductive Node where
  | scalar (x : Scalar)
  | list (items : List Node)
  | mapping (pairs : List (Scalar × Node))

mutual

def Node.toSetting? : Node → Option Setting
  | .scalar x => x.toSetting?
  | .list items => (settingsOf? items).map .list
  | .mapping pairs => (entriesOf? [] pairs).map .table

def settingsOf? : List Node → Option (List Setting)
  | [] => some []
  | x :: r => do
    let v ← x.toSetting?
    return v :: (← settingsOf? r)

def entriesOf? (before : List (String × Setting)) :
    List (Scalar × Node) → Option (List (String × Setting))
  | [] => some before
  | (key, x) :: r => do
    let name ← key.key?
    let v ← x.toSetting?
    entriesOf? (Json.put before name v) r

end

def addPair? (pairs : List (Scalar × Node)) (key : Scalar) (x : Node) : Option (List (Scalar × Node)) :=
  if pairs.any (·.1 = key) then none else some (pairs ++ [(key, x)])

end Countersign.Yaml
