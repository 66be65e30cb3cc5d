import Countersign.Encoding.Hex
import Countersign.Text.Utf8

/-!
# Percent escapes

`%` and two hexadecimal digits stand for a byte. Reading leaves an incomplete
escape as it is. Writing escapes the bytes that a set asks for and every byte
outside ASCII.
-/

set_option autoImplicit false

namespace Countersign.Percent

def hexValue? (b : UInt8) : Option Nat := if b < 0x80 then Hex.value? (Char.ofNat b.toNat) else none

def decode : Bytes → Bytes
  | [] => []
  | 0x25 :: h :: l :: r =>
    match hexValue? h, hexValue? l with
    | some x, some y => UInt8.ofNat (x * 16 + y) :: decode r
    | _, _ => 0x25 :: decode (h :: l :: r)
  | b :: r => b :: decode r

def escape (b : UInt8) : List Char :=
  ['%', Hex.upperDigit (b.toNat / 16), Hex.upperDigit (b.toNat % 16)]

/-- Writes the bytes as ASCII text; a byte outside ASCII or in `reserved` is escaped. -/
def encode (reserved : UInt8 → Bool) (b : Bytes) : List Char :=
  b.flatMap fun x => if 0x80 ≤ x || reserved x then escape x else [Char.ofNat x.toNat]

def isControl (b : UInt8) : Bool := b < 0x20 || b = 0x7f

end Countersign.Percent
