import Countersign.Text.Integer

/-!
# Reading doubles

A double is written as digits with or without a point and an exponent, or as an
infinity or a value that is no number, in any case of letters. Reading rounds to
the nearest double.
-/

set_option autoImplicit false

namespace Countersign.Decimal

def digitRun (cs : List Char) : List Char × List Char :=
  (cs.takeWhile Char.isDigit, cs.dropWhile Char.isDigit)

def runValue (ds : List Char) : Nat := ds.foldl (fun n c => n * 10 + (c.toNat - 48)) 0

/-- The double nearest to `m * 10 ^ e`. Exponents beyond all doubles are cut off first. -/
def nearest (m : Nat) (e : Int) : Float :=
  let width : Int := (Nat.toDigits 10 m).length
  if m = 0 ∨ width + e < -400 then 0
  else if 400 < width + e then 1 / 0
  else if 0 ≤ e then Float.ofScientific (m * Nat.pow 10 e.toNat) false 0
  else Float.ofScientific m true (-e).toNat

def exponent? : List Char → Option Int
  | [] => some 0
  | c :: r => if c = 'e' ∨ c = 'E' then Text.int? r else none

def unsigned? (cs : List Char) : Option Float :=
  let (whole, r) := digitRun cs
  let (fraction, r) :=
    match r with
    | '.' :: r => digitRun r
    | _ => ([], r)
  if whole = [] ∧ fraction = [] then none
  else (exponent? r).map fun e => nearest (runValue (whole ++ fraction)) (e - fraction.length)

def named? (cs : List Char) : Option Float :=
  match String.ofList (cs.map Char.toLower) with
  | "inf" => some (1 / 0)
  | "infinity" => some (1 / 0)
  | "nan" => some (0 / 0)
  | _ => none

def double? (cs : List Char) : Option Float :=
  let (negative, r) :=
    match cs with
    | '-' :: r => (true, r)
    | '+' :: r => (false, r)
    | _ => (false, cs)
  ((unsigned? r).orElse fun _ => named? r).map fun x => if negative then -x else x

end Countersign.Decimal
