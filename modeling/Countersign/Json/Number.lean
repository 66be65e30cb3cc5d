import Countersign.Json.Basic
import Countersign.Text.Integer

/-!
# JSON numerals

A numeral is an optional minus sign, an integer part without leading zeros, and
optionally a fraction and an exponent. Without fraction and exponent it is read
as a 64-bit integer where it fits; all else becomes a double. The significand is
the longest run of digits that fits an unsigned 64-bit integer, and the power of
ten is applied to it in one multiplication or division.
-/

set_option autoImplicit false

namespace Countersign.Json

structure Numeral where
  negative : Bool
  whole : List Nat
  fraction : Option (List Nat)
  exponent : Option (Bool × List Nat)
deriving DecidableEq, Repr

def digits (cs : List Char) : List Nat × List Char :=
  match cs with
  | [] => ([], [])
  | c :: r =>
    match Text.digit? c with
    | some d => let (ds, r) := digits r; (d :: ds, r)
    | none => ([], c :: r)

def digits1? (cs : List Char) : Option (List Nat × List Char) :=
  match digits cs with
  | ([], _) => none
  | (ds, r) => some (ds, r)

def wholePart? (cs : List Char) : Option (List Nat × List Char) := do
  let (ds, r) ← digits1? cs
  match ds with
  | 0 :: _ :: _ => none
  | _ => some (ds, r)

def fractionPart? (cs : List Char) : Option (Option (List Nat) × List Char) :=
  match cs with
  | '.' :: r => (digits1? r).map fun p => (some p.1, p.2)
  | _ => some (none, cs)

def exponentPart? (cs : List Char) : Option (Option (Bool × List Nat) × List Char) :=
  match cs with
  | c :: r =>
    if c = 'e' ∨ c = 'E' then
      let (negative, r) :=
        match r with
        | '+' :: r => (false, r)
        | '-' :: r => (true, r)
        | _ => (false, r)
      (digits1? r).map fun p => (some (negative, p.1), p.2)
    else some (none, cs)
  | [] => some (none, [])

def Numeral.read? (cs : List Char) : Option (Numeral × List Char) := do
  let (negative, r) := match cs with
    | '-' :: r => (true, r)
    | _ => (false, cs)
  let (whole, r) ← wholePart? r
  let (fraction, r) ← fractionPart? r
  let (exponent, r) ← exponentPart? r
  return (⟨negative, whole, fraction, exponent⟩, r)

/-- Takes digits into a significand while it stays below 2^64; the digits that are left. -/
def accumulate (acc : Nat) : List Nat → Nat × List Nat
  | [] => (acc, [])
  | d :: r => if acc * 10 + d < UInt64.size then accumulate (acc * 10 + d) r else (acc, d :: r)

/-- The significand and the power of ten of the part before the exponent. Digits of the whole part
that no longer fit count as zeros, those of the fraction not at all. -/
def Numeral.significand (n : Numeral) : Nat × Int :=
  let (acc, dropped) := accumulate 0 n.whole
  let fraction := n.fraction.getD []
  let (acc, rest) := accumulate acc fraction
  (acc, (dropped.length : Int) - ((fraction.length - rest.length : Nat) : Int))

/-- The double `f * 10 ^ e`, or `none` when it is too large. Far below one, the power is applied in
steps. -/
def scale? (fuel : Nat) (f : Float) (e : Int) : Option Float :=
  match fuel with
  | 0 => some 0
  | fuel + 1 =>
    if e.natAbs ≤ 308 then
      if 0 ≤ e then
        let x := f * Float.ofScientific 1 false e.natAbs
        if x.isInf then none else some x
      else some (f / Float.ofScientific 1 false e.natAbs)
    else if f == 0 then some f
    else if 0 ≤ e then none
    else scale? fuel (f / Float.ofScientific 1 false 308) (e + 308)

def ofDigits (ds : List Nat) : Nat := ds.foldl (fun n d => n * 10 + d) 0

def Numeral.double? (n : Numeral) : Option Float :=
  let (s, e) := n.significand
  let signed (x : Float) : Float := if n.negative then -x else x
  match n.exponent with
  | none => (scale? 8 s.toFloat e).map signed
  | some (negative, ds) =>
    let x := ofDigits ds
    if x < 2147483648 then (scale? 8 s.toFloat (if negative then e - x else e + x)).map signed
    else if s ≠ 0 ∧ !negative then none
    else some (signed 0)

def Numeral.value? (n : Numeral) : Option Number :=
  match n.fraction, n.exponent with
  | none, none =>
    let v := ofDigits n.whole
    if !n.negative ∧ v < UInt64.size then some (.natural (UInt64.ofNat v))
    else if n.negative ∧ 0 < v ∧ v ≤ 9223372036854775808 then some (.negative (Int64.ofInt (-v)))
    else n.double?.map .double
  | _, _ => n.double?.map .double

end Countersign.Json
