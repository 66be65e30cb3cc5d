/-!
# Shortest decimal digits

The fewest decimal digits that read back as a given finite double, and of those
the nearest. A positive double is `m * 2 ^ q`; the reals that round to it form
an interval, closed when `m` is even. Grids of one to seventeen digits are tried
in turn, and on each grid the two neighbours of the double.
-/

set_option autoImplicit false

namespace Countersign.Decimal

/-- A positive double, written `mantissa * 2 ^ exponent`. `narrow` says that the next double below
is only half as far away as the next one above. -/
structure Binary where
  mantissa : Nat
  exponent : Int
  narrow : Bool
deriving DecidableEq, Repr

def Binary.ofBits (bits : UInt64) : Bool × Binary :=
  let n := bits.toNat
  let fraction := n % 4503599627370496
  let e : Nat := n / 4503599627370496 % 2048
  (decide (9223372036854775808 ≤ n),
    if e = 0 then ⟨fraction, -1074, false⟩
    else ⟨4503599627370496 + fraction, (e : Int) - 1075, decide (fraction = 0 ∧ 1 < e)⟩)

structure Digits where
  digits : Nat
  power : Int
deriving DecidableEq, Repr

/-- The double, its lower and its upper bound, as multiples of a common unit that is a quarter of
the last binary place. -/
def Binary.bounds (b : Binary) : Nat × Nat × Nat :=
  let m := 4 * b.mantissa
  (m, if b.narrow then m - 1 else m - 2, m + 2)

def Binary.covers (b : Binary) (d : Nat) (p : Int) : Bool :=
  let (_, lo, hi) := b.bounds
  -- both sides are scaled by the same powers of two and ten, so that all are natural numbers
  let q := b.exponent - 2
  let unit := Nat.pow 2 q.toNat * Nat.pow 10 (-p).toNat
  let x := d * Nat.pow 10 p.toNat * Nat.pow 2 (-q).toNat
  if b.mantissa % 2 = 0 then lo * unit ≤ x && x ≤ hi * unit else lo * unit < x && x < hi * unit

/-- The multiple of `10 ^ p` at or below the double, and twice the remainder beside the grid's
width. -/
def Binary.floorAt (b : Binary) (p : Int) : Nat × Nat × Nat :=
  let num := b.mantissa * Nat.pow 2 b.exponent.toNat * Nat.pow 10 (-p).toNat
  let den := Nat.pow 10 p.toNat * Nat.pow 2 (-b.exponent).toNat
  (num / den, 2 * (num % den), den)

/-- The best point of the grid `10 ^ p` that rounds to the double: the nearer neighbour, and on a
tie the even one. -/
def Binary.onGrid (b : Binary) (p : Int) : Option Digits :=
  let (d, twice, width) := b.floorAt p
  match b.covers d p, b.covers (d + 1) p with
  | true, true =>
    if twice < width then some ⟨d, p⟩
    else if width < twice then some ⟨d + 1, p⟩
    else some ⟨if d % 2 = 0 then d else d + 1, p⟩
  | true, false => some ⟨d, p⟩
  | false, true => some ⟨d + 1, p⟩
  | false, false => none

def digitCount (n : Nat) : Nat := (Nat.toDigits 10 n).length

def Binary.leadingPower (b : Binary) : Int :=
  let num := b.mantissa * Nat.pow 2 b.exponent.toNat
  let den := Nat.pow 2 (-b.exponent).toNat
  if den ≤ num then (digitCount (num / den) : Int) - 1
  else -(digitCount ((den - 1) / num) : Int)

def Binary.search (b : Binary) : List Nat → Option Digits
  | [] => none
  | n :: r =>
    match b.onGrid (b.leadingPower - n) with
    | some d => if 0 < d.digits then some d else b.search r
    | none => b.search r

def Digits.trimmed (d : Digits) : Digits :=
  let cs := (Nat.toDigits 10 d.digits).reverse
  let zeros := min (cs.takeWhile (· = '0')).length (cs.length - 1)
  ⟨d.digits / Nat.pow 10 zeros, d.power + zeros⟩

def Binary.shortest (b : Binary) : Digits :=
  match b.search (List.range 18) with
  | some d => d.trimmed
  | none => ⟨b.mantissa, 0⟩

def Digits.split (d : Digits) : List Char × Int :=
  let cs := Nat.toDigits 10 d.digits
  (cs, (cs.length : Int) + d.power)

def positional (cs : List Char) (point : Int) : List Char :=
  if point ≤ 0 then ['0', '.'] ++ List.replicate (-point).toNat '0' ++ cs
  else if cs.length ≤ point.toNat then cs ++ List.replicate (point.toNat - cs.length) '0'
  else cs.take point.toNat ++ '.' :: cs.drop point.toNat

def scientific (cs : List Char) (point : Int) : List Char :=
  let mantissa :=
    match cs with
    | c :: [] => [c]
    | c :: r => c :: '.' :: r
    | [] => []
  mantissa ++ 'e' :: (toString (point - 1)).toList

/-- Shortest text of a finite double: positional from 1e-5 up to below 1e16, scientific elsewhere,
and an integral value ends in `.0`. -/
def jsonText (x : Float) : String :=
  let (negative, b) := Binary.ofBits x.toBits
  let body :=
    if b.mantissa = 0 then "0.0".toList
    else
      let (cs, point) := b.shortest.split
      if -5 < point ∧ point ≤ 16 then
        let t := positional cs point
        if t.contains '.' then t else t ++ ['.', '0']
      else scientific cs point
  String.ofList (if negative then '-' :: body else body)

def plainText (x : Float) : String :=
  if x.isNaN then "NaN"
  else
    let (negative, b) := Binary.ofBits x.toBits
    let body :=
      if x.isInf then "inf".toList
      else if b.mantissa = 0 then ['0']
      else
        let (cs, point) := b.shortest.split
        positional cs point
    String.ofList (if negative then '-' :: body else body)

end Countersign.Decimal
