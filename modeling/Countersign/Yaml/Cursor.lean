/-!
# Places in a YAML text

A cursor stands before a character and knows its column; lines end in a line feed.
What belongs to a node is told by columns: everything inside a block stands farther
to the right than the block's parent, whose column is −1 for a whole document.
-/

set_option autoImplicit false

namespace Countersign.Yaml

structure Cursor where
  col : Nat := 0
  rest : List Char
deriving DecidableEq, Repr

def isSpace (c : Char) : Bool := c = ' ' || c = '\t'

def isGap : Option Char → Bool
  | none => true
  | some c => isSpace c || c = '\n'

def isFlowMark (c : Char) : Bool := ",[]\x7b\x7d".toList.contains c

namespace Cursor

def advance (c : Cursor) (n : Nat) : Cursor := ⟨c.col + n, c.rest.drop n⟩

def peek? (c : Cursor) : Option Char := c.rest.head?

def second? (c : Cursor) : Option Char := c.rest[1]?

def skipSpaces (c : Cursor) : Cursor := c.advance (c.rest.takeWhile isSpace).length

def toLineEnd (c : Cursor) : Cursor := c.advance (c.rest.takeWhile (· ≠ '\n')).length

def atLineEnd (c : Cursor) : Bool := c.rest.head?.all (· = '\n')

def isLineDone (c : Cursor) : Bool :=
  let r := c.skipSpaces
  r.atLineEnd || (r.peek? = some '#' && (c.col < r.col || c.col = 0))

def isMark (x : Char) (c : Cursor) : Bool := c.peek? = some x && isGap c.second?

def nextLine (c : Cursor) : Cursor := ⟨0, c.toLineEnd.rest.drop 1⟩

/-- The place of the first content at or after the beginning of a line, with a parent at column `n`. A
tab does not indent, so content behind a tab at or before the parent's column is wrong. -/
def contentFromLine? (n : Int) (fuel : Nat) (c : Cursor) : Option Cursor :=
  match fuel with
  | 0 => none
  | fuel + 1 =>
    let r := c.skipSpaces
    if r.rest = [] then some r
    else if r.atLineEnd ∨ r.peek? = some '#' then contentFromLine? n fuel r.nextLine
    else
      let indent := (c.rest.takeWhile (· = ' ')).length
      if 0 ≤ n ∧ c.col + indent < r.col ∧ (c.col + indent : Int) ≤ n then none else some r

def nextContent? (n : Int) (c : Cursor) : Option Cursor :=
  if c.col = 0 then contentFromLine? n (c.rest.length + 1) c
  else if c.isLineDone then
    let r := c.nextLine
    contentFromLine? n (r.rest.length + 1) r
  else none

end Cursor

end Countersign.Yaml
