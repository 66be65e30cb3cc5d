import Countersign.Bytes
import Countersign.Text.Utf8

/-!
# DER trees

A lenient reading of tagged elements as a tree. Lengths may be written in more
bytes than they need; contents are looked at only as far as their type has rules,
and elements with tags that are specific to a context are passed over. A sequence,
a set and the whole must hold at least one element.
-/

set_option autoImplicit false

namespace Countersign.Der

inductive Tree where
  | sequence (items : List Tree)
  | bits (content : Bytes)
  | octets (content : Bytes)
  | objectId (arcs : List Nat)
  | other

/-- A number in groups of seven bits, all but the last of which have the top bit set. -/
def sevenBits? (acc : Nat) : Bytes → Option (Nat × Bytes)
  | [] => none
  | b :: r =>
    let acc := acc * 128 + (b &&& 0x7f).toNat
    if b < 0x80 then some (acc, r) else sevenBits? acc r

def tag? : Bytes → Option (UInt8 × Nat × Bytes)
  | [] => none
  | b :: r =>
    if b &&& 0x1f = 0x1f then (sevenBits? 0 r).map fun p => (b, p.1, p.2)
    else some (b, (b &&& 0x1f).toNat, r)

def looseLength? : Bytes → Option (Nat × Bytes)
  | [] => none
  | b :: r =>
    if b < 0x80 then some (b.toNat, r)
    else
      let n := b.toNat - 0x80
      if n ≤ 8 ∧ n ≤ r.length then some (Bytes.toNatBE (r.take n), r.drop n) else none

def looseElement? (b : Bytes) : Option (UInt8 × Nat × Bytes × Bytes) := do
  let (first, number, r) ← tag? b
  let (n, r) ← looseLength? r
  if n ≤ r.length then some (first, number, r.take n, r.drop n) else none

def arcs? (fuel : Nat) (b : Bytes) : Option (List Nat) :=
  match fuel, b with
  | _, [] => some []
  | 0, _ => none
  | fuel + 1, b => do
    let (x, r) ← sevenBits? 0 b
    return x :: (← arcs? fuel r)

/-- The arcs of an object identifier; its first byte holds two of them. -/
def objectId? : Bytes → Option (List Nat)
  | [] => none
  | b :: r => do
    let n := b.toNat
    let first := if n < 40 then 0 else if n < 80 then 1 else 2
    return first :: (n - 40 * first) :: (← arcs? (r.length + 1) r)

def pair? (a b : UInt8) : Option Nat :=
  if 0x30 ≤ a ∧ a ≤ 0x39 ∧ 0x30 ≤ b ∧ b ≤ 0x39 then some ((a.toNat - 48) * 10 + (b.toNat - 48)) else none

def daysIn (year month : Nat) : Nat :=
  if month = 2 then if year % 4 = 0 ∧ (year % 100 ≠ 0 ∨ year % 400 = 0) then 29 else 28
  else if month = 4 ∨ month = 6 ∨ month = 9 ∨ month = 11 then 30
  else 31

def isDateFrom (year : Nat) : Bytes → Option Bytes
  | a :: b :: c :: d :: e :: f :: g :: h :: i :: j :: r => do
    let month ← pair? a b
    let day ← pair? c d
    let hour ← pair? e f
    let minute ← pair? g h
    let second ← pair? i j
    if 1 ≤ month ∧ month ≤ 12 ∧ 1 ≤ day ∧ day ≤ daysIn year month ∧ hour < 24 ∧ minute < 60 ∧
        second < 60 then some r
    else none
  | _ => none

def isShortTime : Bytes → Bool
  | a :: b :: r =>
    match pair? a b with
    | some y => isDateFrom (if y < 50 then 2000 + y else 1900 + y) r = some [0x5a]
    | none => false
  | _ => false

def isLongTime : Bytes → Bool
  | a :: b :: c :: d :: r =>
    match pair? a b, pair? c d with
    | some x, some y =>
      match isDateFrom (100 * x + y) r with
      | some [0x5a] => true
      | some (0x2e :: r) =>
        let digits := r.takeWhile fun b => 0x30 ≤ b && b ≤ 0x39
        1 ≤ digits.length && digits.length ≤ 9 && r.drop digits.length == [0x5a]
      | _ => false
    | _, _ => false
  | _ => false

def isPrintable (b : UInt8) : Bool :=
  let c := Char.ofNat b.toNat
  c.isAlphanum || " '()+,-./:=?".toList.contains c

mutual

def trees? : Nat → Bytes → Option (List Tree)
  | 0, _ => none
  | fuel + 1, b => do
    let (first, number, contents, r) ← looseElement? b
    let x ← tree? fuel first number contents
    if r = [] then some [x] else return x :: (← trees? fuel r)

def tree? : Nat → UInt8 → Nat → Bytes → Option Tree
  | 0, _, _, _ => none
  | fuel + 1, first, number, contents =>
    if 0x40 ≤ first then some .other
    else
      match number with
      | 0x01 => if contents.length = 1 then some .other else none
      | 0x03 =>
        match contents with
        | [] => some (.bits [])
        | unused :: bits => if unused.toNat ≤ 8 * bits.length then some (.bits bits) else none
      | 0x04 => some (.octets contents)
      | 0x06 => (objectId? contents).map .objectId
      | 0x10 => (trees? fuel contents).map .sequence
      | 0x11 => (trees? fuel contents).map fun _ => .other
      | 0x13 => if contents.all isPrintable then some .other else none
      | 0x17 => if isShortTime contents then some .other else none
      | 0x18 => if isLongTime contents then some .other else none
      | n =>
        if n = 0x0c ∨ n = 0x14 ∨ n = 0x1c ∨ n = 0x1e then (Utf8.decode? contents).map fun _ => .other
        else some .other

end

def Tree.ofBytes? (b : Bytes) : Option (List Tree) := trees? (2 * b.length + 2) b

mutual

/-- The first answer that `f` gives on the elements, descending into sequences only. -/
def Tree.find? {α : Type} (f : Tree → Option α) : Tree → Option α
  | .sequence items => Tree.findIn? f items
  | x => f x

def Tree.findIn? {α : Type} (f : Tree → Option α) : List Tree → Option α
  | [] => none
  | x :: r => (x.find? f).or (Tree.findIn? f r)

end

def firstString? (ts : List Tree) : Option Bytes :=
  Tree.findIn? (fun | .bits b => some b | .octets b => some b | _ => none) ts

end Countersign.Der
