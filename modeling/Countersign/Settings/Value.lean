import Countersign.Json.Basic
import Countersign.Text.Integer

/-!
# Setting values

What a settings file or the environment says: a tree of values under names. Values
in a later layer replace those in an earlier one, name by name where both are
tables. A place in the tree is given by a path; what stands in the way of a path is
replaced.
-/

set_option autoImplicit false

namespace Countersign

inductive Setting where
  | absent
  | bool (b : Bool)
  | integer (n : Int64)
  | double (x : Float)
  | text (s : String)
  | list (items : List Setting)
  | table (entries : List (String × Setting))

namespace Setting

instance : Inhabited Setting := ⟨.absent⟩

def entries : Setting → List (String × Setting)
  | table es => es
  | _ => []

def items : Setting → List Setting
  | list xs => xs
  | _ => []

def get? (x : Setting) (name : String) : Option Setting := x.entries.lookup name

mutual

/-- Lays a value over another one: a table over the entries of the other, anything else in its
place. -/
def overlay (below : Setting) : Setting → Setting
  | table es => .table (overlayEntries below.entries es)
  | x => x

def overlayEntries (below : List (String × Setting)) : List (String × Setting) → List (String × Setting)
  | [] => below
  | (name, x) :: r =>
    overlayEntries (Json.put below name (overlay ((below.lookup name).getD .absent) x)) r

end

/-- A step of a path: a name in a table, or a place in a list, counted from its end if negative. -/
inductive Step where
  | name (s : String)
  | index (n : Int)
deriving DecidableEq, Repr

def makeRoom (xs : List Setting) (n : Int) : List Setting × Nat :=
  if 0 ≤ n then (xs ++ List.replicate (n.toNat + 1 - xs.length) .absent, n.toNat)
  else if (-n).toNat ≤ xs.length then (xs, xs.length - (-n).toNat)
  else (List.replicate ((-n).toNat - xs.length) .absent ++ xs, 0)

def setAt (x : Setting) : List Step → Setting → Setting
  | [], value => x.overlay value
  | .name s :: r, value =>
    .table (Json.put x.entries s (setAt ((x.get? s).getD .absent) r value))
  | .index n :: r, value =>
    let (xs, i) := makeRoom x.items n
    .list (xs.set i (setAt (xs.getD i .absent) r value))

def isNameChar (c : Char) : Bool := c.isAlphanum || c = '_' || c = '-'

def steps? (fuel : Nat) (cs : List Char) : Option (List Step) :=
  match fuel, cs with
  | _, [] => some []
  | 0, _ => none
  | fuel + 1, '.' :: r =>
    match r.takeWhile isNameChar with
    | [] => none
    | name => do return .name (String.ofList name) :: (← steps? fuel (r.dropWhile isNameChar))
  | fuel + 1, '[' :: r => do
    let number := r.takeWhile (· ≠ ']')
    let digits := if number.head? = some '-' then number.tail else number
    if digits = [] ∨ !digits.all Char.isDigit then none
    let n ← Text.int64? number
    match r.dropWhile (· ≠ ']') with
    | ']' :: r => return .index n.toInt :: (← steps? fuel r)
    | _ => none
  | _, _ => none

/-- The path that a key writes. A key that is no path is a name as it stands. -/
def path (key : String) : List Step :=
  let cs := key.toList
  match cs.takeWhile isNameChar with
  | [] => [.name key]
  | first =>
    match steps? (cs.length + 1) (cs.dropWhile isNameChar) with
    | some r => .name (String.ofList first) :: r
    | none => [.name key]

def layer (x : Setting) (entries : List (String × Setting)) : Setting :=
  entries.foldl (fun x e => x.setAt (path e.1) e.2) x

end Setting

end Countersign
