import Countersign.Settings.Value

/-!
# Tables in the making

A document makes tables by headers, by the points in keys, and by lists of tables.
Each name is given once. A header may name again only a table that is so far no
more than a part of longer headers, and keys with points add only to tables made by
such keys.
-/

set_option autoImplicit false

namespace Countersign.Toml

inductive Made where
  | implied
  | header
  | dotted
deriving DecidableEq, Repr

inductive Node where
  | leaf (x : Setting)
  | table (made : Made) (entries : List (String × Node))
  | tables (all : List (List (String × Node)))

abbrev Entries := List (String × Node)

namespace Entries

/-- Changes the table that a header leads to: tables on the way are made where they are missing, and
of a list of tables the last one counts. -/
def update? (f : Entries → Option Entries) : List String → Entries → Option Entries
  | [], es => f es
  | name :: r, es =>
    match es.lookup name with
    | none => do return Json.put es name (.table .implied (← update? f r []))
    | some (.leaf _) => none
    | some (.table made inner) => do return Json.put es name (.table made (← update? f r inner))
    | some (.tables all) => do
      let last ← all.getLast?
      return Json.put es name (.tables (all.dropLast ++ [← update? f r last]))

def makeTable? (name : String) (es : Entries) : Option Entries :=
  match es.lookup name with
  | none => some (es ++ [(name, .table .header [])])
  | some (.table .implied inner) => some (Json.put es name (.table .header inner))
  | some _ => none

def addTable? (name : String) (es : Entries) : Option Entries :=
  match es.lookup name with
  | none => some (es ++ [(name, .tables [[]])])
  | some (.tables all) => some (Json.put es name (.tables (all ++ [[]])))
  | some _ => none

def addLeaf? (name : String) (x : Setting) (es : Entries) : Option Entries :=
  match es.lookup name with
  | none => some (es ++ [(name, .leaf x)])
  | some _ => none

/-- Adds a value under a key with points: the tables on the way must not have a header, and the last
one is made by such keys. -/
def addDotted? (x : Setting) : List String → Entries → Option Entries
  | [], _ => none
  | [name], es => addLeaf? name x es
  | name :: next :: r, es =>
    let isLast := r.isEmpty
    match es.lookup name with
    | none => do return es ++ [(name, .table .dotted (← addDotted? x (next :: r) []))]
    | some (.table .header _) => none
    | some (.table made inner) =>
      if isLast ∧ made = .implied then none
      else do return Json.put es name (.table made (← addDotted? x (next :: r) inner))
    | some (.tables all) =>
      if isLast then none
      else do
        let last ← all.getLast?
        return Json.put es name (.tables (all.dropLast ++ [← addDotted? x (next :: r) last]))
    | some (.leaf _) => none

end Entries

mutual

def Node.toSetting : Node → Setting
  | .leaf x => x
  | .table _ es => .table (entriesToSettings es)
  | .tables all => .list (tablesToSettings all)

def entriesToSettings : List (String × Node) → List (String × Setting)
  | [] => []
  | (name, x) :: r => (name, x.toSetting) :: entriesToSettings r

def tablesToSettings : List (List (String × Node)) → List Setting
  | [] => []
  | es :: r => .table (entriesToSettings es) :: tablesToSettings r

end

end Countersign.Toml
