import Countersign.Decimal.Reading
import Countersign.Settings.Value
import Countersign.Text.Blank

/-!
# Settings in the environment

A variable whose name begins with a given stem and an underscore is a setting. Of
what follows, two underscores are a point of a path. Values that look like a truth
value or a number are taken for one.
-/

set_option autoImplicit false

namespace Countersign.Environment

def value (s : String) : Setting :=
  let cs := s.toList
  if Text.eqIgnoreAsciiCase cs "true".toList then .bool true
  else if Text.eqIgnoreAsciiCase cs "false".toList then .bool false
  else
    match Text.int64? cs with
    | some n => .integer n
    | none =>
      match Decimal.double? cs with
      | some x => .double x
      | none => .text s

def dotted : List Char → List Char
  | '_' :: '_' :: r => '.' :: dotted r
  | c :: r => c :: dotted r
  | [] => []

def key? (stem name : String) : Option String :=
  let start := (stem.toList ++ ['_']).map Text.lowerAscii
  let cs := name.toList.map Text.lowerAscii
  if start.isPrefixOf cs then some (String.ofList (dotted (cs.drop start.length))) else none

def settings (stem : String) (vars : List (String × String)) : List (String × Setting) :=
  vars.foldl
    (fun es v =>
      match key? stem v.1 with
      | some key => Json.put es key (value v.2)
      | none => es)
    []

end Countersign.Environment
