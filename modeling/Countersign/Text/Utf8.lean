import Countersign.Bytes

/-!
# UTF-8

`encode` writes characters as bytes. `decodeLossy` reads any bytes: well-formed
sequences become their characters, and each longest malformed piece becomes one
replacement character. On the bytes of a text the two cancel, so only damaged
bytes are replaced.
-/

set_option autoImplicit false

namespace Countersign.Utf8

def replacement : Char := '\ufffd'

def encodeChar (c : Char) : Bytes := String.utf8EncodeChar c

def encode (cs : List Char) : Bytes := cs.flatMap encodeChar

def ofString (s : String) : Bytes := encode s.toList

@[simp] theorem encode_nil : encode [] = [] := rfl

@[simp] theorem encode_cons (c : Char) (cs : List Char) :
    encode (c :: cs) = encodeChar c ++ encode cs := rfl

@[simp] theorem encode_append (cs ds : List Char) : encode (cs ++ ds) = encode cs ++ encode ds := by
  simp [encode]

def isContinuation (b : UInt8) : Bool := 0x80 ≤ b && b ≤ 0xbf

/-- The second bytes that may follow a three-byte lead: no overlong form and no surrogate. -/
def secondOfThree (lead b : UInt8) : Bool :=
  (if lead = 0xe0 then 0xa0 else 0x80) ≤ b && b ≤ (if lead = 0xed then 0x9f else 0xbf)

/-- The second bytes that may follow a four-byte lead: no overlong form and nothing past U+10FFFF. -/
def secondOfFour (lead b : UInt8) : Bool :=
  (if lead = 0xf0 then 0x90 else 0x80) ≤ b && b ≤ (if lead = 0xf4 then 0x8f else 0xbf)

def bits (b : UInt8) : Nat := b.toNat % 64

/-- The first character of `a :: r`, and how many bytes of `r` belong to it. A malformed piece
counts as one replacement character. -/
def first (a : UInt8) (r : Bytes) : Char × Nat :=
  if a < 0x80 then (Char.ofNat a.toNat, 0)
  else if 0xc2 ≤ a && a ≤ 0xdf then
    match r with
    | b :: _ =>
      if isContinuation b then (Char.ofNat (a.toNat % 32 * 64 + bits b), 1) else (replacement, 0)
    | [] => (replacement, 0)
  else if 0xe0 ≤ a && a ≤ 0xef then
    match r with
    | b :: r' =>
      if secondOfThree a b then
        match r' with
        | c :: _ =>
          if isContinuation c then
            (Char.ofNat (a.toNat % 16 * 4096 + bits b * 64 + bits c), 2)
          else (replacement, 1)
        | [] => (replacement, 1)
      else (replacement, 0)
    | [] => (replacement, 0)
  else if 0xf0 ≤ a && a ≤ 0xf4 then
    match r with
    | b :: r' =>
      if secondOfFour a b then
        match r' with
        | c :: r'' =>
          if isContinuation c then
            match r'' with
            | d :: _ =>
              if isContinuation d then
                (Char.ofNat (a.toNat % 8 * 262144 + bits b * 4096 + bits c * 64 + bits d), 3)
              else (replacement, 2)
            | [] => (replacement, 2)
          else (replacement, 1)
        | [] => (replacement, 1)
      else (replacement, 0)
    | [] => (replacement, 0)
  else (replacement, 0)

/-- Reads the bytes after the next `skip`, which belong to a character already read. -/
def decodeFrom : Nat → Bytes → List Char
  | _, [] => []
  | skip + 1, _ :: r => decodeFrom skip r
  | 0, a :: r => (first a r).1 :: decodeFrom (first a r).2 r

def decodeLossy (b : Bytes) : List Char := decodeFrom 0 b

def decode? (b : Bytes) : Option (List Char) :=
  let cs := decodeLossy b
  if encode cs = b then some cs else none

def toStringLossy (b : Bytes) : String := String.ofList (decodeLossy b)

end Countersign.Utf8
