/-!
# Decimal integers in text

Times travel as decimal text. A reading of a text is an optional single sign
followed by one or more ASCII digits; leading zeros are allowed. The 64-bit
readers refuse what does not fit.
-/

set_option autoImplicit false

namespace Countersign.Text

def digit? (c : Char) : Option Nat :=
  if '0' ≤ c && c ≤ '9' then some (c.toNat - 48) else none

def digitsFrom (acc : Nat) : List Char → Option Nat
  | [] => some acc
  | c :: r => (digit? c).bind fun d => digitsFrom (acc * 10 + d) r

def nat? : List Char → Option Nat
  | [] => none
  | cs => digitsFrom 0 cs

def int? : List Char → Option Int
  | '+' :: r => (nat? r).map Int.ofNat
  | '-' :: r => (nat? r).map fun n => -Int.ofNat n
  | cs => (nat? cs).map Int.ofNat

def toInt64? (n : Int) : Option Int64 :=
  if Int64.minValue.toInt ≤ n ∧ n ≤ Int64.maxValue.toInt then some (Int64.ofInt n) else none

def int64? (cs : List Char) : Option Int64 := (int? cs).bind toInt64?

def uint64? : List Char → Option UInt64
  | '+' :: r => (nat? r).bind fun n => if n < UInt64.size then some (UInt64.ofNat n) else none
  | cs => (nat? cs).bind fun n => if n < UInt64.size then some (UInt64.ofNat n) else none

def ofInt64 (n : Int64) : String := toString n.toInt

end Countersign.Text
