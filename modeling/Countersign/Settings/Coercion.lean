import Countersign.Decimal.Shortest
import Countersign.Settings.Value
import Countersign.Text.Blank

/-!
# Reading settings

The value that a setting is wanted as need not be what the file has: texts that say
yes or no are truth values and numbers, numbers are rounded, and all of them are
texts. A table may be given as a list of its values in order.
-/

set_option autoImplicit false

namespace Countersign.Setting

def word? (s : String) : Option Bool :=
  let is (w : String) : Bool := Text.eqIgnoreAsciiCase s.toList w.toList
  if ["true", "on", "yes"].any is then some true
  else if ["false", "off", "no"].any is then some false
  else none

/-- A value as a truth value; of the numbers only zero is false. -/
def toBool? : Setting → Option Bool
  | bool b => some b
  | integer n => some (n ≠ 0)
  | double x => some (!(x == 0))
  | text s => if s = "1" then some true else if s = "0" then some false else word? s
  | _ => none

/-- A value as an unsigned integer. A double goes to the nearest one, a half away from zero. -/
def toUInt64? : Setting → Option UInt64
  | bool b => some (if b then 1 else 0)
  | integer n => if 0 ≤ n then some n.toUInt64 else none
  | double x => some x.round.toUInt64
  | text s =>
    match word? s with
    | some b => some (if b then 1 else 0)
    | none => Text.uint64? s.toList
  | _ => none

def toText? : Setting → Option String
  | bool b => some (if b then "true" else "false")
  | integer n => some (Text.ofInt64 n)
  | double x => some (Decimal.plainText x)
  | text s => some s
  | _ => none

def toTexts? : Setting → Option (List String)
  | list xs => xs.mapM toText?
  | _ => none

def toOptionalText? : Setting → Option (Option String)
  | absent => some none
  | x => (toText? x).map some

/-- The values under the given names, in that order. A list gives them by place. -/
def fields? (names : List String) : Setting → Option (List (Option Setting))
  | table es => some (names.map fun n => es.lookup n)
  | list xs => some ((List.range names.length).map fun i => xs[i]?)
  | _ => none

end Countersign.Setting
