import Countersign.Bytes

/-!
# Base64

Three bytes are written as four characters of an alphabet. Signatures use the
standard alphabet with padding, token parts the URL-safe one without. Reading
is canonical: it accepts exactly what writing produces, so padding that is
missing or in excess and unused bits that are not zero are refused.
-/

set_option autoImplicit false

namespace Countersign.Base64

/-- How bytes are spelled: the two last characters of the alphabet, and whether the last group is
filled up with `=`. -/
structure Spelling where
  char62 : Char
  char63 : Char
  padded : Bool

def Spelling.standard : Spelling := ⟨'+', '/', true⟩

def Spelling.urlSafe : Spelling := ⟨'-', '_', false⟩

def Spelling.char (s : Spelling) (n : Nat) : Char :=
  if n < 26 then Char.ofNat (65 + n)
  else if n < 52 then Char.ofNat (71 + n)
  else if n < 62 then Char.ofNat (n - 4)
  else if n = 62 then s.char62
  else s.char63

def Spelling.value? (s : Spelling) (c : Char) : Option Nat :=
  if 'A' ≤ c && c ≤ 'Z' then some (c.toNat - 65)
  else if 'a' ≤ c && c ≤ 'z' then some (c.toNat - 71)
  else if '0' ≤ c && c ≤ '9' then some (c.toNat + 4)
  else if c = s.char62 then some 62
  else if c = s.char63 then some 63
  else none

def Spelling.pad (s : Spelling) (n : Nat) : List Char := if s.padded then List.replicate n '=' else []

def encode (s : Spelling) : Bytes → List Char
  | [] => []
  | [a] => s.char (a.toNat / 4) :: s.char (a.toNat % 4 * 16) :: s.pad 2
  | [a, b] =>
    s.char (a.toNat / 4) :: s.char (a.toNat % 4 * 16 + b.toNat / 16) ::
      s.char (b.toNat % 16 * 4) :: s.pad 1
  | a :: b :: c :: r =>
    s.char (a.toNat / 4) :: s.char (a.toNat % 4 * 16 + b.toNat / 16) ::
      s.char (b.toNat % 16 * 4 + c.toNat / 64) :: s.char (c.toNat % 64) :: encode s r

def decodeTail? (s : Spelling) (cs : List Char) : Option Bytes :=
  match cs with
  | c₁ :: c₂ :: r => do
    let x ← s.value? c₁
    let y ← s.value? c₂
    if r = s.pad 2 then
      if y % 16 = 0 then some [UInt8.ofNat (x * 4 + y / 16)] else none
    else
      match r with
      | c₃ :: r => do
        let z ← s.value? c₃
        if r = s.pad 1 then
          if z % 4 = 0 then
            some [UInt8.ofNat (x * 4 + y / 16), UInt8.ofNat (y % 16 * 16 + z / 4)]
          else none
        else none
      | [] => none
  | _ => none

/-- Reads characters as bytes; accepts only what `encode` writes. -/
def decode? (s : Spelling) : List Char → Option Bytes
  | [] => some []
  | c₁ :: c₂ :: c₃ :: c₄ :: r =>
    match s.value? c₁, s.value? c₂, s.value? c₃, s.value? c₄ with
    | some x, some y, some z, some w => do
      let rest ← decode? s r
      return UInt8.ofNat (x * 4 + y / 16) :: UInt8.ofNat (y % 16 * 16 + z / 4) ::
        UInt8.ofNat (z % 4 * 64 + w) :: rest
    | _, _, _, _ => decodeTail? s (c₁ :: c₂ :: c₃ :: c₄ :: r)
  | cs => decodeTail? s cs

end Countersign.Base64
