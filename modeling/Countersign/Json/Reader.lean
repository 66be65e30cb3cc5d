import Countersign.Encoding.Hex
import Countersign.Json.Number

/-!
# Reading JSON

A text is read in two steps. The first finds its structure: `Node` keeps numerals
and the escapes of strings as they stand. The second takes values out of nodes,
and only there can a lone surrogate, a number out of range or too deep a nesting
be an error; so what nobody asks for is not judged.
-/

set_option autoImplicit false

namespace Countersign.Json

/-- A part of a string: a character, or a UTF-16 unit written as an escape. -/
inductive StringPart where
  | char (c : Char)
  | unit (u : Nat)
deriving DecidableEq, Repr

inductive Node where
  | null
  | bool (b : Bool)
  | number (n : Numeral)
  | string (parts : List StringPart)
  | array (items : List Node)
  | object (members : List (List StringPart × Node))

def isBlank (c : Char) : Bool := c = ' ' || c = '\t' || c = '\n' || c = '\r'

def skipBlank (cs : List Char) : List Char := cs.dropWhile isBlank

def hexUnit? : List Char → Option (Nat × List Char)
  | a :: b :: c :: d :: r => do
    let w ← Hex.value? a
    let x ← Hex.value? b
    let y ← Hex.value? c
    let z ← Hex.value? d
    return (w * 4096 + x * 256 + y * 16 + z, r)
  | _ => none

def escaped? : Char → Option Char
  | '"' => some '"'
  | '\\' => some '\\'
  | '/' => some '/'
  | 'b' => some '\x08'
  | 'f' => some '\x0c'
  | 'n' => some '\n'
  | 'r' => some '\r'
  | 't' => some '\t'
  | _ => none

def parts? : List Char → Option (List StringPart × List Char)
  | [] => none
  | '"' :: r => some ([], r)
  | '\\' :: 'u' :: a :: b :: c :: d :: r => do
    let (u, _) ← hexUnit? [a, b, c, d]
    let (ps, r) ← parts? r
    return (.unit u :: ps, r)
  | '\\' :: e :: r => do
    let c ← escaped? e
    let (ps, r) ← parts? r
    return (.char c :: ps, r)
  | c :: r =>
    if c.toNat < 0x20 ∨ c = '\\' then none
    else do
      let (ps, r) ← parts? r
      return (.char c :: ps, r)

mutual

def node? : Nat → List Char → Option (Node × List Char)
  | 0, _ => none
  | fuel + 1, cs =>
    match skipBlank cs with
    | 'n' :: 'u' :: 'l' :: 'l' :: r => some (.null, r)
    | 't' :: 'r' :: 'u' :: 'e' :: r => some (.bool true, r)
    | 'f' :: 'a' :: 'l' :: 's' :: 'e' :: r => some (.bool false, r)
    | '"' :: r => (parts? r).map fun p => (.string p.1, p.2)
    | '[' :: r =>
      match skipBlank r with
      | ']' :: r => some (.array [], r)
      | r => (items? fuel r).map fun p => (.array p.1, p.2)
    | '{' :: r =>
      match skipBlank r with
      | '}' :: r => some (.object [], r)
      | r => (members? fuel r).map fun p => (.object p.1, p.2)
    | r => (Numeral.read? r).map fun p => (.number p.1, p.2)

def items? : Nat → List Char → Option (List Node × List Char)
  | 0, _ => none
  | fuel + 1, cs => do
    let (x, r) ← node? fuel cs
    match skipBlank r with
    | ',' :: r => do
      let (xs, r) ← items? fuel r
      return (x :: xs, r)
    | ']' :: r => return ([x], r)
    | _ => none

def members? : Nat → List Char → Option (List (List StringPart × Node) × List Char)
  | 0, _ => none
  | fuel + 1, cs => do
    match skipBlank cs with
    | '"' :: r => do
      let (name, r) ← parts? r
      match skipBlank r with
      | ':' :: r => do
        let (x, r) ← node? fuel r
        match skipBlank r with
        | ',' :: r => do
          let (xs, r) ← members? fuel r
          return ((name, x) :: xs, r)
        | '}' :: r => return ([(name, x)], r)
        | _ => none
      | _ => none
    | _ => none

end

def Node.ofText? (cs : List Char) : Option Node := do
  let (x, r) ← node? (cs.length + 1) cs
  if skipBlank r = [] then some x else none

/-- Joins surrogate pairs; a surrogate on its own has no character. -/
def characters? : List StringPart → Option (List Char)
  | [] => some []
  | .char c :: r => (characters? r).map (c :: ·)
  | .unit u :: r =>
    if 0xd800 ≤ u ∧ u < 0xdc00 then
      match r with
      | .unit v :: r =>
        if 0xdc00 ≤ v ∧ v < 0xe000 then
          (characters? r).map (Char.ofNat (0x10000 + (u - 0xd800) * 1024 + (v - 0xdc00)) :: ·)
        else none
      | _ => none
    else if 0xdc00 ≤ u ∧ u < 0xe000 then none
    else (characters? r).map (Char.ofNat u :: ·)

def Node.text? : Node → Option String
  | .string parts => (characters? parts).map String.ofList
  | _ => none

def textOfParts? (parts : List StringPart) : Option String :=
  (characters? parts).map String.ofList

/-- The greatest number of arrays and objects inside one another. -/
def maxDepth : Nat := 127

mutual

def Node.value? (depth : Nat) : Node → Option Json
  | .null => some .null
  | .bool b => some (.bool b)
  | .number n => n.value?.map .number
  | .string parts => (textOfParts? parts).map .string
  | .array items =>
    if depth < maxDepth then (values? (depth + 1) items).map .array else none
  | .object members =>
    if depth < maxDepth then (namedValues? (depth + 1) members).map ofMembers else none

def values? (depth : Nat) : List Node → Option (List Json)
  | [] => some []
  | x :: r => do
    let v ← x.value? depth
    let vs ← values? depth r
    return v :: vs

def namedValues? (depth : Nat) : List (List StringPart × Node) → Option (List (String × Json))
  | [] => some []
  | (name, x) :: r => do
    let n ← textOfParts? name
    let v ← x.value? depth
    let vs ← namedValues? depth r
    return (n, v) :: vs

end

def parse? (text : String) : Option Json := do (← Node.ofText? text.toList).value? 0

/-- The fields of a record with the given names, in that order. An object may have further members,
but none of these twice; an array gives the fields by position. -/
def Node.fields? (names : List String) : Node → Option (List (Option Node))
  | .array items =>
    if items.length ≤ names.length then
      some (items.map some ++ List.replicate (names.length - items.length) none)
    else none
  | .object members => do
    let members ← members.mapM fun m => do return (← textOfParts? m.1, m.2)
    names.mapM fun name =>
      match members.filter (·.1 == name) with
      | [] => some none
      | [m] => some (some m.2)
      | _ => none
  | _ => none

def Node.bool? : Node → Option Bool
  | .bool b => some b
  | _ => none

def Node.uint64? : Node → Option UInt64
  | .number n =>
    match n.value? with
    | some (.natural n) => some n
    | _ => none
  | _ => none

def Node.int64? : Node → Option Int64
  | .number n =>
    match n.value? with
    | some (.natural n) => if n.toNat < 9223372036854775808 then some n.toInt64 else none
    | some (.negative n) => some n
    | _ => none
  | _ => none

def Node.list? : Node → Option (List Node)
  | .array items => some items
  | _ => none

def Node.nullable? {α : Type} (f : Node → Option α) : Node → Option (Option α)
  | .null => some none
  | x => (f x).map some

def field? {α : Type} (default : α) (f : Node → Option α) : Option Node → Option α
  | none => some default
  | some x => f x

end Countersign.Json
