import Countersign.Log.Event
import Countersign.Text.Alphanumeric
import Countersign.Text.Blank

/-!
# Log filters

A filter is a list of directives between commas. A directive is a level, a target
with or without a level, or either of these with a span and fields in brackets:
`target[span\x7bfield=value\x7d]=level`. Of the directives whose target begins the
target of an event, the one with the longest target decides; of two for one target,
the later one.
-/

set_option autoImplicit false

namespace Countersign.Log

/-- The level up to which events are let through; none is off. -/
abbrev Threshold := Option Level

namespace Threshold

def all : List Threshold := [none, some .error, some .warn, some .info, some .debug, some .trace]

def rank : Threshold → Nat
  | none => 0
  | some l => l.rank

/-- Reads a threshold: its name in any case, its number, or nothing for errors only. -/
def ofText? (cs : List Char) : Option Threshold :=
  let digits :=
    match cs with
    | '+' :: r => r
    | _ => cs
  if cs = [] then some (some .error)
  else if digits ≠ [] ∧ digits.all Char.isDigit then
    all[digits.foldl (fun n c => min 6 (n * 10 + (c.toNat - 48))) 0]?
  else if Text.eqIgnoreAsciiCase cs "off".toList then some none
  else (Level.all.find? fun l => Text.eqIgnoreAsciiCase cs l.name.toList).map some

end Threshold

structure FieldMatch where
  name : String
  hasValue : Bool
deriving DecidableEq, Repr

structure Directive where
  target : Option String := none
  span : Option String := none
  fields : List FieldMatch := []
  threshold : Threshold
deriving DecidableEq, Repr

namespace Directive

def level? (cs : List Char) : Option Threshold :=
  if cs = [] then some (some .trace) else Threshold.ofText? cs

def indexFrom? (p : Char → Bool) (start : Nat) (cs : List Char) : Option Nat :=
  ((cs.drop start).findIdx? p).map (· + start)

def slice (cs : List Char) (start stop : Nat) : List Char := (cs.drop start).take (stop - start)

def fieldMatch (cs : List Char) : FieldMatch where
  name := String.ofList (cs.takeWhile (· ≠ '='))
  hasValue := cs.contains '='

/-- What follows the bracket around a span: nothing, or a level. `cut` is scanned, and the parts are
cut from `text`. -/
def afterSpan? (text cut : List Char) (d : Directive) (i : Nat) : Option Directive :=
  match cut.drop i with
  | [] => some d
  | '=' :: _ => do return { d with threshold := ← level? (text.drop (i + 1)) }
  | _ => none

def span? (text cut : List Char) (target : Option String) (start : Nat) : Option Directive := do
  let i ← indexFrom? (fun c => c = ']' || c = '\x7b') start cut
  let name := slice text start i
  let d : Directive := { target := target, threshold := some .trace }
  if cut[i]? = some ']' then afterSpan? text cut { d with span := some (String.ofList name) } (i + 1)
  else
    let j ← indexFrom? (· = '\x7d') (i + 1) cut
    let field := slice text (i + 1) j
    if field = [] ∨ cut[j + 1]? ≠ some ']' then none
    let span := if name = [] then none else some (String.ofList name)
    afterSpan? text cut { d with span := span, fields := [fieldMatch field] } (j + 2)

def startsTarget (c : Char) : Bool := c = '-' || c = ':' || c = '_' || Text.isAlphanumeric c

/-- Reads a directive. It is scanned without the blanks around it, but its parts are cut from the text
as it stands, so blanks in front shift all of them. -/
def ofText? (text : List Char) : Option Directive :=
  let cut := Text.trim text
  match cut with
  | [] => none
  | '[' :: _ => span? text cut none 1
  | c :: _ =>
    if !startsTarget c then none
    else
      match indexFrom? (fun c => c = '=' || c = '[') 0 cut with
      | none =>
        match Threshold.ofText? text with
        | some t => some { threshold := t }
        | none => some { target := some (String.ofList text), threshold := some .trace }
      | some i =>
        let target := some (String.ofList (slice text 0 i))
        if cut[i]? = some '=' then
          (level? (text.drop (i + 1))).map fun t => { target := target, threshold := t }
        else span? text cut target (i + 1)

def isPlain (d : Directive) : Bool := d.span.isNone && d.fields.all (!·.hasValue)

def isSpanned (d : Directive) : Bool := d.span.isSome || d.fields ≠ []

def concerns (d : Directive) (target : String) : Bool :=
  match d.target with
  | none => true
  | some t => t.toList.isPrefixOf target.toList

/-- How specific a directive is: no target, then targets by their length, then by fields. -/
def specificity (d : Directive) : Nat × Nat :=
  ((d.target.map fun t => t.utf8ByteSize + 1).getD 0, d.fields.length)

def outranks (d e : Directive) : Bool :=
  e.specificity.1 < d.specificity.1 ||
    (e.specificity.1 == d.specificity.1 && e.specificity.2 < d.specificity.2)

end Directive

structure Filter where
  directives : List Directive
deriving DecidableEq, Repr

namespace Filter

def ofDirectives (fallback : Threshold) (ds : List Directive) : Filter :=
  let plain := ds.filter Directive.isPlain
  if plain = [] ∧ ds.all (!·.isSpanned) then ⟨[{ threshold := fallback }]⟩ else ⟨plain⟩

def pieces (text : String) : List (List Char) := (text.toList.splitOn ',').filter (· ≠ [])

/-- Reads a filter text all of whose directives are right. An empty one lets nothing through. -/
def ofText? (text : String) : Option Filter := do
  return ofDirectives none (← (pieces text).mapM Directive.ofText?)

/-- Reads a filter text, leaving out the directives that are wrong. One without any lets errors
through. -/
def ofTextLenient (text : String) : Filter :=
  ofDirectives (some .error) ((pieces text).filterMap Directive.ofText?)

def deciding? (f : Filter) (target : String) : Option Directive :=
  (f.directives.filter fun d => d.concerns target).foldl
    (fun best d =>
      match best with
      | none => some d
      | some b => if b.outranks d then some b else some d)
    none

def enables (f : Filter) (target : String) (level : Level) : Bool :=
  match f.deciding? target with
  | none => false
  | some d => level.rank ≤ Threshold.rank d.threshold

end Filter

end Countersign.Log
