import Countersign.Bytes

/-!
# Hexadecimal digits

Digests are shown as two lower-case digits a byte. Escapes are read with digits
of either case.
-/

set_option autoImplicit false

namespace Countersign.Hex

def digit (n : Nat) : Char := if n < 10 then Char.ofNat (48 + n) else Char.ofNat (87 + n)

def upperDigit (n : Nat) : Char := if n < 10 then Char.ofNat (48 + n) else Char.ofNat (55 + n)

def value? (c : Char) : Option Nat :=
  if '0' ≤ c && c ≤ '9' then some (c.toNat - 48)
  else if 'a' ≤ c && c ≤ 'f' then some (c.toNat - 87)
  else if 'A' ≤ c && c ≤ 'F' then some (c.toNat - 55)
  else none

def encode (b : Bytes) : List Char :=
  b.flatMap fun x => [digit (x.toNat / 16), digit (x.toNat % 16)]

def decode? : List Char → Option Bytes
  | [] => some []
  | [_] => none
  | c :: d :: r => do
    let h ← value? c
    let l ← value? d
    return UInt8.ofNat (h * 16 + l) :: (← decode? r)

end Countersign.Hex
