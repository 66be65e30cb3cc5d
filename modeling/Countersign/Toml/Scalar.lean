import Countersign.Decimal.Reading
import Countersign.Encoding.Hex
import Countersign.Settings.Value

/-!
# TOML numbers and times

Integers in four bases, doubles, and dates and times. Digits may be grouped by
single underscores. A date or a time is a text in one form: a capital T between
them, no zeros at the end of a fraction.
-/

set_option autoImplicit false

namespace Countersign.Toml

/-- The digits of a group without its underscores, each of which stands between two digits. -/
def ungroup? (isDigit : Char → Bool) (cs : List Char) : Option (List Char) :=
  let runs := cs.splitOn '_'
  if runs.all fun run => run ≠ [] && run.all isDigit then some runs.flatten else none

def inBase (base : Nat) (ds : List Char) : Nat :=
  ds.foldl (fun n c => n * base + (Hex.value? c).getD 0) 0

def isHexDigit (c : Char) : Bool := (Hex.value? c).isSome

def isOctalDigit (c : Char) : Bool := '0' ≤ c && c ≤ '7'

def isBinaryDigit (c : Char) : Bool := c = '0' || c = '1'

def sign (cs : List Char) : Bool × List Char :=
  match cs with
  | '-' :: r => (true, r)
  | '+' :: r => (false, r)
  | _ => (false, cs)

def decimal? (cs : List Char) : Option (List Char) := do
  let ds ← ungroup? Char.isDigit cs
  if 1 < ds.length ∧ ds.head? = some '0' then none else some ds

def integer? (cs : List Char) : Option Int :=
  let value :=
    match cs with
    | '0' :: 'x' :: r => (ungroup? isHexDigit r).map fun ds => (inBase 16 ds : Int)
    | '0' :: 'o' :: r => (ungroup? isOctalDigit r).map fun ds => (inBase 8 ds : Int)
    | '0' :: 'b' :: r => (ungroup? isBinaryDigit r).map fun ds => (inBase 2 ds : Int)
    | _ =>
      let (negative, r) := sign cs
      (decimal? r).map fun ds => if negative then -(inBase 10 ds : Int) else (inBase 10 ds : Int)
  value.filter fun n => Int64.minValue.toInt ≤ n && n ≤ Int64.maxValue.toInt

def isExponentMark (c : Char) : Bool := c = 'e' || c = 'E'

def fraction? (cs : List Char) : Option (List Char × List Char) :=
  match cs with
  | '.' :: r =>
    (ungroup? Char.isDigit (r.takeWhile (!isExponentMark ·))).map fun ds =>
      (ds, r.dropWhile (!isExponentMark ·))
  | _ => some ([], cs)

def exponent? : List Char → Option Int
  | [] => some 0
  | _ :: r =>
    let (negative, r) := sign r
    (ungroup? Char.isDigit r).map fun ds =>
      if negative then -(inBase 10 ds : Int) else (inBase 10 ds : Int)

/-- A double without sign: a whole part with a fraction, an exponent or both; or a named value. -/
def size? (cs : List Char) : Option Float :=
  if cs = "inf".toList then some (1 / 0)
  else if cs = "nan".toList then some (0 / 0)
  else do
    let isMark (c : Char) : Bool := c = '.' || isExponentMark c
    let whole ← decimal? (cs.takeWhile (!isMark ·))
    let (fraction, rest) ← fraction? (cs.dropWhile (!isMark ·))
    let exponent ← exponent? rest
    let x := Decimal.nearest (inBase 10 (whole ++ fraction)) (exponent - fraction.length)
    if x.isInf ∨ (fraction = [] ∧ rest = []) then none else some x

def double? (cs : List Char) : Option Float :=
  let (negative, r) := sign cs
  (size? r).map fun x => if negative then -x else x

def field? (width low high : Nat) (cs : List Char) : Option (List Char × List Char) :=
  let ds := cs.take width
  if ds.length = width ∧ ds.all Char.isDigit ∧ low ≤ inBase 10 ds ∧ inBase 10 ds ≤ high then
    some (ds, cs.drop width)
  else none

def daysIn (year month : Nat) : Nat :=
  if month = 2 then if year % 4 = 0 ∧ (year % 100 ≠ 0 ∨ year % 400 = 0) then 29 else 28
  else if month = 4 ∨ month = 6 ∨ month = 9 ∨ month = 11 then 30
  else 31

def date? (cs : List Char) : Option (List Char × List Char) := do
  let (y, r) ← field? 4 0 9999 cs
  let '-' :: r := r | none
  let (m, r) ← field? 2 1 12 r
  let '-' :: r := r | none
  let (d, r) ← field? 2 1 (daysIn (inBase 10 y) (inBase 10 m)) r
  return (y ++ '-' :: m ++ '-' :: d, r)

def fractionText (ds : List Char) : List Char :=
  let kept := ((ds.take 9).reverse.dropWhile (· = '0')).reverse
  '.' :: if kept = [] then ['0'] else kept

def time? (cs : List Char) : Option (List Char × List Char) := do
  let (h, r) ← field? 2 0 23 cs
  let ':' :: r := r | none
  let (m, r) ← field? 2 0 59 r
  match r with
  | ':' :: r => do
    let (s, r) ← field? 2 0 60 r
    let text := h ++ ':' :: m ++ ':' :: s
    match r with
    | '.' :: r =>
      match r.takeWhile Char.isDigit with
      | [] => none
      | ds => some (text ++ fractionText ds, r.dropWhile Char.isDigit)
    | _ => some (text, r)
  | _ => some (h ++ ':' :: m, r)

def zone? (cs : List Char) : Option (List Char) :=
  match cs with
  | [] => some []
  | [c] => if c = 'Z' ∨ c = 'z' then some ['Z'] else none
  | c :: r =>
    if c = '+' ∨ c = '-' then do
      let (h, r) ← field? 2 0 23 r
      let ':' :: r := r | none
      let (m, r) ← field? 2 0 59 r
      let c := if inBase 10 (h ++ m) = 0 then '+' else c
      if r = [] then some (c :: h ++ ':' :: m) else none
    else none

def moment? (cs : List Char) : Option (List Char) :=
  match date? cs with
  | some (d, []) => some d
  | some (d, c :: r) =>
    if c = 'T' ∨ c = 't' ∨ c = ' ' then do
      let (t, r) ← time? r
      return d ++ 'T' :: t ++ (← zone? r)
    else none
  | none =>
    match time? cs with
    | some (t, []) => some t
    | _ => none

def scalar? (cs : List Char) : Option Setting :=
  if cs = "true".toList then some (.bool true)
  else if cs = "false".toList then some (.bool false)
  else
    match integer? cs with
    | some n => some (.integer (Int64.ofInt n))
    | none =>
      match double? cs with
      | some x => some (.double x)
      | none => (moment? cs).map fun t => .text (String.ofList t)

def endsScalar (c : Char) : Bool := " \t\n\r,]#\x7d".toList.contains c

/-- The value at the front of a text that is no string, list or table, and what follows. A blank may
stand between a date and a time. -/
def scalarAt? (cs : List Char) : Option (Setting × List Char) :=
  let first := cs.takeWhile (!endsScalar ·)
  let r := cs.dropWhile (!endsScalar ·)
  let joined :=
    match date? first, r with
    | some (_, []), ' ' :: c :: t =>
      if c.isDigit then some (first ++ ' ' :: (c :: t).takeWhile (!endsScalar ·)) else none
    | _, _ => none
  match joined with
  | some word => (scalar? word).map fun x => (x, cs.drop word.length)
  | none => (scalar? first).map fun x => (x, r)

end Countersign.Toml
