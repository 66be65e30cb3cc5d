import Countersign.Yaml.Node
import Countersign.Yaml.Text

/-!
# YAML documents

A node is a scalar, a list or a mapping between brackets, or a block of entries at
one column. It may have a name, by which later nodes stand for it, and a tag. A text
holds any number of documents between lines of three dashes or points.
-/

set_option autoImplicit false

namespace Countersign.Yaml

abbrev Reading := StateT (List (String × Node)) Option

structure Properties where
  anchor : Option String := none
  tag : Option String := none
deriving DecidableEq, Repr

def wordHere (c : Cursor) : List Char := c.rest.takeWhile fun x => !(isGap (some x) || isFlowMark x)

def properties (fuel : Nat) (p : Properties) (c : Cursor) : Properties × Cursor :=
  match fuel with
  | 0 => (p, c)
  | fuel + 1 =>
    let w := wordHere c
    let next := (c.advance w.length).skipSpaces
    match w with
    | '&' :: name => properties fuel { p with anchor := some (String.ofList name) } next
    | '!' :: _ => properties fuel { p with tag := some (String.ofList w) } next
    | _ => (p, c)

def propertiesHere (c : Cursor) : Properties × Cursor := properties (c.rest.length + 1) {} c

def startsProperty (c : Cursor) : Bool := c.peek? = some '&' || c.peek? = some '!'

def name (p : Properties) (x : Node) : Reading Unit :=
  match p.anchor with
  | none => pure ()
  | some a => modify ((a, x) :: ·)

def reference (c : Cursor) : Reading (Node × Cursor) := do
  let w := (wordHere c).drop 1
  match (← get).lookup (String.ofList w) with
  | some x => return (x, c.advance (w.length + 1))
  | none => failure

def plainScalar (tag : Option String) (cs : List Char) : Scalar :=
  match tag with
  | some t => .ofTagged t cs
  | none => .ofPlain cs

def keyOf : Node → Reading Scalar
  | .scalar x => pure x
  | _ => failure

def flowContent (n : Int) (c : Cursor) : Reading Cursor :=
  if c.isLineDone then do
    let d ← c.nextContent? n
    if d.rest ≠ [] ∧ n < d.col then pure d else failure
  else pure c.skipSpaces

/-- Whether a colon here parts a key from its value. After a quoted key it needs no gap. -/
def partsKey (afterQuote : Bool) (c : Cursor) : Bool :=
  c.peek? = some ':' && (afterQuote || isGap c.second? || c.second?.any isFlowMark)

def isClosed (c : Cursor) : Bool := c.peek?.any fun x => x = '"' || x = '\'' || x = '[' || x = '\x7b'

mutual

def flowNode (n : Int) (tag : Option String) : Nat → Cursor → Reading (Node × Cursor)
  | 0, _ => failure
  | fuel + 1, c =>
    match c.rest with
    | '[' :: _ => do
      let (xs, d) ← flowItems n fuel (c.advance 1)
      return (.list xs, d)
    | '\x7b' :: _ => do
      let (ps, d) ← flowPairs n [] fuel (c.advance 1)
      return (.mapping ps, d)
    | '*' :: _ => reference c
    | _ =>
      if startsProperty c then do
        let (p, d) := propertiesHere c
        let d ← flowContent n d
        let (x, e) ← flowNode n p.tag fuel d
        name p x
        return (x, e)
      else
        match quotedText? n c with
        | some (s, d) => return (.scalar (.text (String.ofList s)), d)
        | none => do
          let (s, d) ← plainText? true n c
          return (.scalar (plainScalar tag s), d)

def flowValue (n : Int) : Nat → Cursor → Reading (Node × Cursor)
  | 0, _ => failure
  | fuel + 1, c => do
    let d ← flowContent n c
    if d.peek?.any fun x => x = ',' || x = ']' || x = '\x7d' then return (.scalar .null, d)
    else flowNode n none fuel d

def flowItems (n : Int) : Nat → Cursor → Reading (List Node × Cursor)
  | 0, _ => failure
  | fuel + 1, c => do
    let c ← flowContent n c
    if c.peek? = some ']' then return ([], c.advance 1)
    let (x, d) ← flowNode n none fuel c
    let e ← flowContent n d
    let (x, e) ←
      if partsKey (isClosed c) e then do
        let (v, e) ← flowValue n fuel (e.advance 1)
        pure (Node.mapping [(← keyOf x, v)], e)
      else pure (x, e)
    let e ← flowContent n e
    if e.peek? = some ',' then do
      let (xs, e) ← flowItems n fuel (e.advance 1)
      return (x :: xs, e)
    else if e.peek? = some ']' then return ([x], e.advance 1)
    else failure

def flowPairs (n : Int) (ps : List (Scalar × Node)) :
    Nat → Cursor → Reading (List (Scalar × Node) × Cursor)
  | 0, _ => failure
  | fuel + 1, c => do
    let c ← flowContent n c
    if c.peek? = some '\x7d' then return (ps, c.advance 1)
    let c ← if c.isMark '?' then flowContent n (c.advance 1) else pure c
    let (k, d) ← flowNode n none fuel c
    let e ← flowContent n d
    let (v, e) ←
      if partsKey (isClosed c) e then flowValue n fuel (e.advance 1) else pure (.scalar .null, e)
    let ps ← addPair? ps (← keyOf k) v
    let e ← flowContent n e
    if e.peek? = some ',' then flowPairs n ps fuel (e.advance 1)
    else if e.peek? = some '\x7d' then return (ps, e.advance 1)
    else failure

end

/-- A key with its colon in one line, if there is one here, and the place after the colon. -/
def implicitKey? (c : Cursor) : Reading (Option (Scalar × Cursor)) := do
  let (p, d) := propertiesHere c
  let line : Cursor := ⟨d.col, d.rest.takeWhile (· ≠ '\n')⟩
  let known ← get
  let found : Option (Node × Cursor) :=
    match line.rest with
    | '*' :: _ => ((reference line).run known).map (·.1)
    | _ =>
      match quotedText? (-1) line with
      | some (s, e) => some (.scalar (.text (String.ofList s)), e)
      | none =>
        if startsPlain false line then
          let (s, e) := plainLine false line
          some (.scalar (plainScalar p.tag s), e)
        else none
  match found with
  | some (.scalar k, e) =>
    let e := e.skipSpaces
    if e.isMark ':' then do
      name p (.scalar k)
      return some (k, d.advance (e.col + 1 - d.col))
    else return none
  | _ => return none

mutual

/-- The node after a place, in this line or in later ones, and the next content after it. It stands
behind column `n`; only the items of a list that is a value of a mapping may stand at that column. A
block of entries begins in this line only if `fresh`. -/
def blockNode (n : Int) (fresh listHere : Bool) (tag : Option String) :
    Nat → Cursor → Reading (Node × Cursor)
  | 0, _ => failure
  | fuel + 1, c =>
    if c.isLineDone then do
      let d ← c.nextContent? n
      if d.rest ≠ [] ∧ (n < d.col ∨ (listHere ∧ d.col = n ∧ d.isMark '-')) then
        blockContent n true tag fuel d
      else return (.scalar .null, d)
    else blockContent n fresh tag fuel c.skipSpaces

def blockContent (n : Int) (fresh : Bool) (tag : Option String) : Nat → Cursor → Reading (Node × Cursor)
  | 0, _ => failure
  | fuel + 1, c => do
    if c.isMark '-' then
      if fresh then
        let (xs, d) ← blockItems c.col fuel c
        return (.list xs, d)
      else failure
    let key ← implicitKey? c
    if key.isSome ∨ c.isMark '?' then
      if fresh then
        let (ps, d) ← blockPairs c.col [] fuel c
        return (.mapping ps, d)
      else failure
    if startsProperty c then
      let (p, d) := propertiesHere c
      let (x, e) ← blockNode n false false p.tag fuel d
      name p x
      return (x, e)
    let (x, d) ←
      if c.peek? = some '|' ∨ c.peek? = some '>' then do
        let (s, d) ← blockText? n c
        pure (Node.scalar (.text (String.ofList s)), d)
      else if c.peek?.any fun x => x = '[' || x = '\x7b' || x = '*' || x = '"' || x = '\'' then
        flowNode n none fuel c
      else do
        let (s, d) ← plainText? false n c
        pure (Node.scalar (plainScalar tag s), d)
    return (x, ← d.nextContent? n)

def blockItems (col : Nat) : Nat → Cursor → Reading (List Node × Cursor)
  | 0, _ => failure
  | fuel + 1, c => do
    let (x, d) ← blockNode col true false none fuel (c.advance 1)
    if d.rest = [] ∨ d.col < col ∨ (d.col = col ∧ !d.isMark '-') then return ([x], d)
    else if d.col = col then do
      let (xs, d) ← blockItems col fuel d
      return (x :: xs, d)
    else failure

def blockPairs (col : Nat) (ps : List (Scalar × Node)) :
    Nat → Cursor → Reading (List (Scalar × Node) × Cursor)
  | 0, _ => failure
  | fuel + 1, c => do
    let (k, value, d) ←
      if c.isMark '?' then do
        let (k, d) ← blockNode col true true none fuel (c.advance 1)
        let hasValue := d.col = col && d.isMark ':'
        pure (← keyOf k, hasValue, if hasValue then d.advance 1 else d)
      else
        match ← implicitKey? c with
        | some (k, d) => pure (k, true, d)
        | none => failure
    let (v, d) ← if value then blockNode col (c.isMark '?') true none fuel d else pure (.scalar .null, d)
    let ps ← addPair? ps k v
    if d.rest = [] ∨ d.col < col then return (ps, d)
    else if d.col = col then blockPairs col ps fuel d
    else failure

end

def unifyBreaks : List Char → List Char
  | '\r' :: '\n' :: r => '\n' :: unifyBreaks r
  | '\r' :: r => '\n' :: unifyBreaks r
  | c :: r => c :: unifyBreaks r
  | [] => []

def isMarker (x : Char) (row : List Char) : Bool :=
  row.take 3 = [x, x, x] && isGap row[3]?

def isIdle (line : List Char) : Bool :=
  match line.dropWhile isSpace with
  | [] => true
  | x :: _ => x = '#' || line.head? = some '%'

/-- The documents of a text from its lines: where each begins. Before the first dashes and after points
there is a document only if some line says something. -/
def documents (marked : Bool) (before : List (List Char)) : List (List Char) → List Cursor
  | [] => finish
  | line :: r =>
    if isMarker '-' line then finish ++ documents true [line.drop 3] r
    else if isMarker '.' line then finish ++ documents false [] r
    else documents marked (before ++ [line]) r
where
  finish : List Cursor :=
    let text := (before.intersperse ['\n']).flatten
    if marked then [⟨3, text⟩] else if before.all isIdle then [] else [⟨0, text⟩]

def document? (c : Cursor) : Option Node := do
  let ((x, d), _) ← (blockNode (-1) (c.col = 0) false none (3 * c.rest.length + 3) c).run []
  if d.rest = [] then some x else none

def settings? (text : List Char) : Option Setting :=
  match documents false [] ((unifyBreaks text).splitOn '\n') with
  | [] => some (.table [])
  | [c] => (document? c).bind Node.toSetting?
  | _ => none

end Countersign.Yaml
