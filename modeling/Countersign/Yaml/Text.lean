import Countersign.Encoding.Hex
import Countersign.Text.Blank
import Countersign.Yaml.Cursor

/-!
# YAML scalars as text

Scalars are written plain, in quotes, or as a block of lines behind a bar or an
angle. Plain and quoted text may go on in later lines: a break between two lines
counts as a space, and an empty line as a break.
-/

set_option autoImplicit false

namespace Countersign.Yaml

/-- From the end of a line to the content of a later one: the number of breaks, and the place. The
content stands behind column `n`. -/
def overBreaks? (n : Int) (fuel : Nat) (c : Cursor) : Option (Nat × Cursor) :=
  match fuel with
  | 0 => none
  | fuel + 1 =>
    let r := c.nextLine.skipSpaces
    if c.rest = [] ∨ r.rest = [] then none
    else if r.atLineEnd then (overBreaks? n fuel r).map fun p => (p.1 + 1, p.2)
    else if n < r.col then some (1, r)
    else none

def foldedBreaks (breaks : Nat) : List Char :=
  if breaks ≤ 1 then [' '] else List.replicate (breaks - 1) '\n'

def letterEscape? : Char → Option Char
  | '0' => some '\x00'
  | 'a' => some '\x07'
  | 'b' => some '\x08'
  | 't' => some '\t'
  | '\t' => some '\t'
  | 'n' => some '\n'
  | 'v' => some '\x0b'
  | 'f' => some '\x0c'
  | 'r' => some '\r'
  | 'e' => some '\x1b'
  | ' ' => some ' '
  | '"' => some '"'
  | '/' => some '/'
  | '\\' => some '\\'
  | 'N' => some '\u0085'
  | '_' => some '\u00a0'
  | 'L' => some '\u2028'
  | 'P' => some '\u2029'
  | _ => none

def hexWidth? : Char → Option Nat
  | 'x' => some 2
  | 'u' => some 4
  | 'U' => some 8
  | _ => none

def hexChar? (ds : List Char) : Option Char := do
  let n ← ds.foldlM (fun n c => do return n * 16 + (← Hex.value? c)) 0
  if h : n.isValidChar then some (Char.ofNatAux n h) else none

def escape? (c : Cursor) : Option (Char × Cursor) :=
  match c.rest with
  | [] => none
  | x :: r =>
    match hexWidth? x with
    | some n => if n ≤ r.length then (hexChar? (r.take n)).map fun y => (y, c.advance (n + 1)) else none
    | none => (letterEscape? x).map fun y => (y, c.advance 1)

/-- Text up to a closing quote, from the place after the opening one on. In double quotes there are
escapes, and a backslash joins two lines; in single quotes a quote is written twice. -/
def quoted? (quote : Char) (n : Int) (fuel : Nat) (c : Cursor) : Option (List Char × Cursor) :=
  match fuel, c.rest with
  | 0, _ => none
  | _, [] => none
  | fuel + 1, x :: r =>
    if x = quote then
      if quote = '\'' ∧ r.head? = some '\'' then
        (quoted? quote n fuel (c.advance 2)).map fun p => ('\'' :: p.1, p.2)
      else some ([], c.advance 1)
    else if x = '\\' ∧ quote = '"' then
      if r.head? = some '\n' then do
        let (breaks, d) ← overBreaks? n (r.length + 1) (c.advance 1)
        let (s, e) ← quoted? quote n fuel d
        return (List.replicate (breaks - 1) '\n' ++ s, e)
      else do
        let (y, d) ← escape? (c.advance 1)
        let (s, e) ← quoted? quote n fuel d
        return (y :: s, e)
    else if isSpace x ∨ x = '\n' then
      let d := c.skipSpaces
      if d.peek? = some '\n' then do
        let (breaks, e) ← overBreaks? n (d.rest.length + 1) d
        let (s, e) ← quoted? quote n fuel e
        return (foldedBreaks breaks ++ s, e)
      else (quoted? quote n fuel (c.advance 1)).map fun p => (x :: p.1, p.2)
    else (quoted? quote n fuel (c.advance 1)).map fun p => (x :: p.1, p.2)

def quotedText? (n : Int) (c : Cursor) : Option (List Char × Cursor) :=
  match c.rest with
  | '"' :: r => quoted? '"' n (r.length + 1) (c.advance 1)
  | '\'' :: r => quoted? '\'' n (r.length + 1) (c.advance 1)
  | _ => none

/-- The number of characters of plain text in a line. It ends before a colon with a gap behind it and
before a comment; between brackets also before a mark, and before a colon with a mark behind it. -/
def plainLength (flow afterBlank : Bool) : List Char → Nat
  | [] => 0
  | x :: r =>
    if x = '\n' ∨ (x = '#' ∧ afterBlank) ∨ (flow ∧ isFlowMark x) ∨
        (x = ':' ∧ (isGap r.head? ∨ (flow ∧ r.head?.any isFlowMark))) then 0
    else 1 + plainLength flow (isSpace x) r

def plainLine (flow : Bool) (c : Cursor) : List Char × Cursor :=
  let text := Text.trimEnd isSpace (c.rest.take (plainLength flow true c.rest))
  (text, c.advance text.length)

def startsPlain (flow : Bool) (c : Cursor) : Bool :=
  match c.rest with
  | [] => false
  | x :: r =>
    if x = '-' ∨ x = '?' ∨ x = ':' then !(isGap r.head? || (flow && r.head?.any isFlowMark))
    else !(isSpace x || x = '\n' || "&*!'\"%@#`".toList.contains x || isFlowMark x ||
      (!flow && (x = '|' || x = '>')))

def plainLines (flow : Bool) (n : Int) (fuel : Nat) (c : Cursor) : List Char × Cursor :=
  match fuel with
  | 0 => ([], c)
  | fuel + 1 =>
    if c.skipSpaces.peek? ≠ some '\n' then ([], c)
    else
      match overBreaks? n (c.rest.length + 1) c with
      | none => ([], c)
      | some (breaks, d) =>
        match plainLine flow d with
        | ([], _) => ([], c)
        | (line, e) =>
          let (s, e) := plainLines flow n fuel e
          (foldedBreaks breaks ++ line ++ s, e)

def plainText? (flow : Bool) (n : Int) (c : Cursor) : Option (List Char × Cursor) :=
  if startsPlain flow c then
    let (line, d) := plainLine flow c
    let (s, e) := plainLines flow n (d.rest.length + 1) d
    some (line ++ s, e)
  else none

/-- What becomes of the breaks at the end of a block of lines. -/
inductive Chomp where
  | clip
  | strip
  | keep
deriving DecidableEq, Repr

def blockHead? (cs : List Char) : Option (Chomp × Option Nat) :=
  let chomp? (c : Char) : Option Chomp :=
    if c = '-' then some .strip else if c = '+' then some .keep else none
  let indent? (c : Char) : Option Nat := if '1' ≤ c ∧ c ≤ '9' then some (c.toNat - 48) else none
  match cs with
  | [] => some (.clip, none)
  | [x] => ((chomp? x).map fun k => (k, none)).orElse fun _ => (indent? x).map fun i => (.clip, some i)
  | [x, y] =>
    match chomp? x, indent? y, indent? x, chomp? y with
    | some k, some i, _, _ => some (k, some i)
    | _, _, some i, some k => some (k, some i)
    | _, _, _, _ => none
  | _ => none

def indentOf (line : List Char) : Nat := (line.takeWhile (· = ' ')).length

def isBlankLine (line : List Char) : Bool := line.all (· = ' ')

def keepsBreaks (line : List Char) : Bool := line.head?.any isSpace

def foldLines (keeps : Bool) (empties : Nat) : List (List Char) → List Char
  | [] => []
  | [] :: r => foldLines keeps (empties + 1) r
  | line :: r =>
    let breaks :=
      if keeps || keepsBreaks line then List.replicate (empties + 1) '\n'
      else if empties = 0 then [' ']
      else List.replicate empties '\n'
    breaks ++ line ++ foldLines (keepsBreaks line) 0 r

def joinLines (folded : Bool) (lines : List (List Char)) : List Char :=
  if folded then
    let first := lines.takeWhile (· = [])
    match lines.drop first.length with
    | [] => []
    | line :: r => List.replicate first.length '\n' ++ line ++ foldLines (keepsBreaks line) 0 r
  else (lines.intersperse ['\n']).flatten

def blockText? (n : Int) (c : Cursor) : Option (List Char × Cursor) := do
  let folded := c.peek? = some '>'
  let head := c.advance 1
  let word := head.rest.takeWhile fun x => !isGap (some x)
  let (chomp, given) ← blockHead? word
  if !(head.advance word.length).isLineDone then none
  let all := c.nextLine.rest.splitOn '\n'
  let all := if all.getLast? = some [] then all.dropLast else all
  let indent :=
    match given with
    | some i => (max n 0).toNat + i
    | none => max (n + 1).toNat (((all.find? (!isBlankLine ·)).map indentOf).getD 0)
  let inside := all.takeWhile fun line => isBlankLine line || indent ≤ indentOf line
  let lines := inside.map (·.drop indent)
  let body := (lines.reverse.dropWhile (· = [])).reverse
  let last := if body = [] then 0 else 1
  let breaks :=
    match chomp with
    | .clip => last
    | .strip => 0
    | .keep => last + (lines.length - body.length)
  let after := ((all.drop inside.length).intersperse ['\n']).flatten
  return (joinLines folded body ++ List.replicate breaks '\n', ⟨0, after⟩)

end Countersign.Yaml
