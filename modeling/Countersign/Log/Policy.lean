import Countersign.Json.Reader
import Countersign.Log.Filter

/-!
# Logging policies

What is logged, and whether as plain text or structured. The environment may give
another filter. A process has one log, which is set up once.
-/

set_option autoImplicit false

namespace Countersign

structure LogPolicy where
  level : String := "info"
  structured : Bool := false
deriving DecidableEq, Repr

namespace LogPolicy

def fieldNames : List String := ["level", "structured"]

def ofNode? (x : Json.Node) : Option LogPolicy := do
  match ← x.fields? fieldNames with
  | [level, structured] =>
    let d : LogPolicy := {}
    return ⟨← Json.field? d.level (·.text?) level, ← Json.field? d.structured (·.bool?) structured⟩
  | _ => none

def ofText? (text : String) : Option LogPolicy := do ofNode? (← Json.Node.ofText? text.toList)

def toJson (p : LogPolicy) : Json :=
  .object [("level", .string p.level), ("structured", .bool p.structured)]

/-- The filter in force: that of the environment if it is given and right, else that of the policy. -/
def filter (p : LogPolicy) (environment : Option String) : Log.Filter :=
  (environment.bind Log.Filter.ofText?).getD (Log.Filter.ofTextLenient p.level)

def alreadySet : String := "a global default trace dispatcher has already been set"

def install (p : LogPolicy) (environment : Option String) : Option Log.Filter → Except String Log.Filter
  | none => .ok (p.filter environment)
  | some _ => .error alreadySet

end LogPolicy

end Countersign
