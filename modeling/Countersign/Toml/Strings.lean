import Countersign.Encoding.Hex

/-!
# TOML strings and keys

Basic strings have escapes, literal strings have none; both may span lines between
three quotes. A key is a bare word or a string on one line, or several of these
with points between them.
-/

set_option autoImplicit false

namespace Countersign.Toml

def isSpace (c : Char) : Bool := c = ' ' || c = '\t'

def skipSpace (cs : List Char) : List Char := cs.dropWhile isSpace

def isControl (c : Char) : Bool := (c.toNat < 0x20 && c ≠ '\t') || c.toNat = 0x7f

def afterBreak? : List Char → Option (List Char)
  | '\n' :: r => some r
  | '\r' :: '\n' :: r => some r
  | _ => none

def hexChar? (ds : List Char) : Option Char := do
  let n ← ds.foldlM (fun n c => do return n * 16 + (← Hex.value? c)) 0
  if h : n.isValidChar then some (Char.ofNatAux n h) else none

def letterEscape? : Char → Option Char
  | 'b' => some '\x08'
  | 't' => some '\t'
  | 'n' => some '\n'
  | 'f' => some '\x0c'
  | 'r' => some '\r'
  | 'e' => some '\x1b'
  | '"' => some '"'
  | '\\' => some '\\'
  | _ => none

def hexWidth? : Char → Option Nat
  | 'x' => some 2
  | 'u' => some 4
  | 'U' => some 8
  | _ => none

def escape? : List Char → Option (Char × List Char)
  | [] => none
  | c :: r =>
    match hexWidth? c with
    | some n => if n ≤ r.length then (hexChar? (r.take n)).map fun x => (x, r.drop n) else none
    | none => (letterEscape? c).map fun x => (x, r)

def basic? (fuel : Nat) (cs : List Char) : Option (List Char × List Char) :=
  match fuel, cs with
  | 0, _ => none
  | _, [] => none
  | _, '"' :: r => some ([], r)
  | fuel + 1, '\\' :: r => do
    let (c, r) ← escape? r
    let (s, r) ← basic? fuel r
    return (c :: s, r)
  | fuel + 1, c :: r =>
    if isControl c then none
    else (basic? fuel r).map fun p => (c :: p.1, p.2)

def literal? (cs : List Char) : Option (List Char × List Char) :=
  let s := cs.takeWhile (· ≠ '\'')
  match cs.dropWhile (· ≠ '\'') with
  | _ :: r => if s.any isControl then none else some (s, r)
  | [] => none

/-- Blanks and line breaks after a backslash at the end of a line, one break at least. -/
def foldedBreak? (cs : List Char) : Option (List Char) :=
  (afterBreak? (skipSpace cs)).map fun r => r.dropWhile fun c => isSpace c || c = '\n' || c = '\r'

/-- The text of a string of several lines up to three quotes; up to two more quotes before these
belong to the text. Without escapes, a backslash is a character like others. -/
def lines? (quote : Char) (escapes : Bool) (fuel : Nat) (cs : List Char) :
    Option (List Char × List Char) :=
  match fuel, cs with
  | 0, _ => none
  | _, [] => none
  | fuel + 1, c :: r =>
    if c = quote then
      let run := (c :: r).takeWhile (· = quote)
      let rest := (c :: r).dropWhile (· = quote)
      if 6 ≤ run.length then none
      else if 3 ≤ run.length then some (run.drop 3, rest)
      else (lines? quote escapes fuel rest).map fun p => (run ++ p.1, p.2)
    else if c = '\\' ∧ escapes then
      match foldedBreak? r with
      | some r => lines? quote escapes fuel r
      | none => do
        let (x, r) ← escape? r
        let (s, r) ← lines? quote escapes fuel r
        return (x :: s, r)
    else
      match afterBreak? (c :: r) with
      | some r' =>
        (lines? quote escapes fuel r').map fun p =>
          ((c :: r).take (r.length + 1 - r'.length) ++ p.1, p.2)
      | none => if isControl c then none else (lines? quote escapes fuel r).map fun p => (c :: p.1, p.2)

def withoutFirstBreak (cs : List Char) : List Char := (afterBreak? cs).getD cs

def string? (cs : List Char) : Option (String × List Char) :=
  let found :=
    match cs with
    | '"' :: '"' :: '"' :: r => lines? '"' true (r.length + 1) (withoutFirstBreak r)
    | '\'' :: '\'' :: '\'' :: r => lines? '\'' false (r.length + 1) (withoutFirstBreak r)
    | '"' :: r => basic? (r.length + 1) r
    | '\'' :: r => literal? r
    | _ => none
  found.map fun p => (String.ofList p.1, p.2)

def isBare (c : Char) : Bool := c.isAlphanum || c = '_' || c = '-'

def word? (cs : List Char) : Option (String × List Char) :=
  match cs with
  | '"' :: r => (basic? (r.length + 1) r).map fun p => (String.ofList p.1, p.2)
  | '\'' :: r => (literal? r).map fun p => (String.ofList p.1, p.2)
  | _ =>
    match cs.takeWhile isBare with
    | [] => none
    | w => some (String.ofList w, cs.dropWhile isBare)

def key? (fuel : Nat) (cs : List Char) : Option (List String × List Char) :=
  match fuel with
  | 0 => none
  | fuel + 1 => do
    let (w, r) ← word? (skipSpace cs)
    match skipSpace r with
    | '.' :: r => do
      let (ws, r) ← key? fuel r
      return (w :: ws, r)
    | r => return ([w], r)

end Countersign.Toml
