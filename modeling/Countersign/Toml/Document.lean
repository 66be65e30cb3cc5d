import Countersign.Toml.Scalar
import Countersign.Toml.Strings
import Countersign.Toml.Tables

/-!
# TOML documents

A document is lines: a header of a table, or a key with its value. Lists and tables
inside a line may span several lines and hold comments.
-/

set_option autoImplicit false

namespace Countersign.Toml

def lineEnd? (cs : List Char) : Option (List Char) :=
  let r :=
    match skipSpace cs with
    | '#' :: r => r.dropWhile (!isControl ·)
    | r => r
  match r with
  | [] => some []
  | _ => afterBreak? r

def skipLines (fuel : Nat) (cs : List Char) : List Char :=
  match fuel with
  | 0 => cs
  | fuel + 1 =>
    match skipSpace cs with
    | [] => []
    | r =>
      match lineEnd? r with
      | some r' => skipLines fuel r'
      | none => r

def skip (cs : List Char) : List Char := skipLines (cs.length + 1) cs

mutual

def value? : Nat → List Char → Option (Setting × List Char)
  | 0, _ => none
  | fuel + 1, cs =>
    match cs with
    | '"' :: _ => (string? cs).map fun p => (.text p.1, p.2)
    | '\'' :: _ => (string? cs).map fun p => (.text p.1, p.2)
    | '[' :: r => (items? fuel (skip r)).map fun p => (.list p.1, p.2)
    | '\x7b' :: r => (pairs? fuel [] (skip r)).map fun p => (.table (entriesToSettings p.1), p.2)
    | _ => scalarAt? cs

def items? : Nat → List Char → Option (List Setting × List Char)
  | 0, _ => none
  | _, ']' :: r => some ([], r)
  | fuel + 1, cs => do
    let (x, r) ← value? fuel cs
    match skip r with
    | ',' :: r => do
      let (xs, r) ← items? fuel (skip r)
      return (x :: xs, r)
    | ']' :: r => return ([x], r)
    | _ => none

def pairs? : Nat → Entries → List Char → Option (Entries × List Char)
  | 0, _, _ => none
  | _, es, '\x7d' :: r => some (es, r)
  | fuel + 1, es, cs => do
    let (key, r) ← key? (cs.length + 1) cs
    let '=' :: r := r | none
    let (x, r) ← value? fuel (skipSpace r)
    let es ← Entries.addDotted? x key es
    match skip r with
    | ',' :: r => pairs? fuel es (skip r)
    | '\x7d' :: r => return (es, r)
    | _ => none

end

/-- What a line does: it opens a table, adds a table to a list, or adds a value. -/
inductive Line where
  | header (path : List String)
  | item (path : List String)
  | pair (key : List String) (x : Setting)

def line? (cs : List Char) : Option (Line × List Char) :=
  match cs with
  | '[' :: '[' :: r => do
    let (path, r) ← key? (r.length + 1) r
    let ']' :: ']' :: r := r | none
    return (.item path, r)
  | '[' :: r => do
    let (path, r) ← key? (r.length + 1) r
    let ']' :: r := r | none
    return (.header path, r)
  | _ => do
    let (key, r) ← key? (cs.length + 1) cs
    let '=' :: r := r | none
    let (x, r) ← value? (r.length + 1) (skipSpace r)
    return (.pair key x, r)

def lines (fuel : Nat) (cs : List Char) : Option (List Line) :=
  match fuel with
  | 0 => none
  | fuel + 1 =>
    match skip cs with
    | [] => some []
    | r => do
      let (l, r) ← line? r
      let r ← lineEnd? r
      return l :: (← lines fuel r)

/-- Carries out a line: the path of the open table, and the tables so far. -/
def Line.apply? (state : List String × Entries) : Line → Option (List String × Entries)
  | .header path => do
    let name ← path.getLast?
    return (path, ← Entries.update? (Entries.makeTable? name) path.dropLast state.2)
  | .item path => do
    let name ← path.getLast?
    return (path, ← Entries.update? (Entries.addTable? name) path.dropLast state.2)
  | .pair key x => do return (state.1, ← Entries.update? (Entries.addDotted? x key) state.1 state.2)

def settings? (text : List Char) : Option (List (String × Setting)) := do
  let ls ← lines (text.length + 1) text
  let (_, es) ← ls.foldlM Line.apply? ([], [])
  return entriesToSettings es

end Countersign.Toml
