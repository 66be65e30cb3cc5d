import Countersign.Bytes

/-!
# DER

Tagged elements with definite lengths in their shortest form. The functions
read one element from the front of a byte string and return what follows.
-/

set_option autoImplicit false

namespace Countersign.Der

def integerTag : UInt8 := 0x02
def bitStringTag : UInt8 := 0x03
def octetStringTag : UInt8 := 0x04
def sequenceTag : UInt8 := 0x30

/-- The length after a tag: one byte below 128, or the shortest long form. -/
def length? : Bytes → Option (Nat × Bytes)
  | [] => none
  | b :: r =>
    if b < 0x80 then some (b.toNat, r)
    else
      let n := b.toNat - 0x80
      let l := Bytes.toNatBE (r.take n)
      if 1 ≤ n ∧ n ≤ 4 ∧ n ≤ r.length ∧ 128 ≤ l ∧ Nat.pow 256 (n - 1) ≤ l ∧ l < 268435456 then
        some (l, r.drop n)
      else none

def element? : Bytes → Option (UInt8 × Bytes × Bytes)
  | [] => none
  | tag :: r => do
    if tag &&& 0x1f = 0x1f then none
    let (n, r) ← length? r
    if n ≤ r.length then some (tag, r.take n, r.drop n) else none

def contents? (tag : UInt8) (b : Bytes) : Option (Bytes × Bytes) := do
  let (t, c, r) ← element? b
  if t = tag then some (c, r) else none

def whole? (tag : UInt8) (b : Bytes) : Option Bytes := do
  let (c, r) ← contents? tag b
  if r = [] then some c else none

def natural? (b : Bytes) : Option (Nat × Bytes) := do
  let (c, r) ← contents? integerTag b
  match c with
  | [] => none
  | [x] => if x < 0x80 then some (x.toNat, r) else none
  | 0 :: x :: _ => if x < 0x80 then none else some (Bytes.toNatBE c, r)
  | x :: _ => if x < 0x80 then some (Bytes.toNatBE c, r) else none

def naturals? : Nat → Bytes → Option (List Nat × Bytes)
  | 0, b => some ([], b)
  | n + 1, b => do
    let (x, r) ← natural? b
    let (xs, r) ← naturals? n r
    return (x :: xs, r)

def bitString? (b : Bytes) : Option (Bytes × Bytes) := do
  let (c, r) ← contents? bitStringTag b
  match c with
  | 0 :: bits => some (bits, r)
  | _ => none

end Countersign.Der
