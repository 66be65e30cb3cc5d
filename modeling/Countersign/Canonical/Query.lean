import Countersign.Encoding.Percent
import Countersign.Text.Blank

/-!
# Canonical queries

Signer and verifier must agree on a query however it was spelled. The raw query
is decoded as a whole, split into parts and into pairs, and the pairs are sorted
by key; values of one key keep their order. An absent query and one without
parts have no canonical form.
-/

set_option autoImplicit false

namespace Countersign.Query

abbrev Pair := List Char × List Char

def dropMark : List Char → List Char
  | '?' :: r => r
  | cs => cs

/-- Plus signs read as spaces, then escapes read as bytes, then the bytes read as text. -/
def decoded (raw : List Char) : List Char :=
  let spaced := (dropMark raw).map fun c => if c = '+' then ' ' else c
  Utf8.decodeLossy (Percent.decode (Utf8.encode spaced))

def parts (cs : List Char) : List (List Char) := (cs.splitOn '&').filter fun p => p ≠ []

/-- A part as key and value, divided at its first equals sign. -/
def pair (part : List Char) : Pair := (Text.splitOnce '=' part).getD (part, [])

def pairsOf (cs : List Char) : List Pair := (parts cs).map pair

def pairs (raw : List Char) : List Pair := pairsOf (decoded raw)

def keyLE (p q : Pair) : Bool := Utf8.encode p.1 ≤ Utf8.encode q.1

/-- The pairs sorted by key, without disturbing pairs of one key. -/
def sorted (ps : List Pair) : List Pair := ps.mergeSort keyLE

def render : List Pair → List Char
  | [] => []
  | [p] => p.1 ++ '=' :: p.2
  | p :: r => p.1 ++ '=' :: p.2 ++ '&' :: render r

def canonicalChars? (raw : List Char) : Option (List Char) :=
  match pairs raw with
  | [] => none
  | ps => some (render (sorted ps))

def canonical? (raw : String) : Option String := (canonicalChars? raw.toList).map String.ofList

end Countersign.Query
