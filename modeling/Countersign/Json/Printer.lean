import Countersign.Decimal.Shortest
import Countersign.Encoding.Hex
import Countersign.Json.Basic

/-!
# Printing JSON

Compact text without blanks. Strings escape the quote, the backslash and the
control characters below the space, the five common ones by a letter; all other
characters stand for themselves.
-/

set_option autoImplicit false

namespace Countersign.Json

def escape (c : Char) : List Char :=
  if c = '"' then ['\\', '"']
  else if c = '\\' then ['\\', '\\']
  else if c = '\x08' then ['\\', 'b']
  else if c = '\x0c' then ['\\', 'f']
  else if c = '\n' then ['\\', 'n']
  else if c = '\r' then ['\\', 'r']
  else if c = '\t' then ['\\', 't']
  else if c.toNat < 0x20 then
    ['\\', 'u', '0', '0', Hex.digit (c.toNat / 16), Hex.digit (c.toNat % 16)]
  else [c]

def quote (s : String) : List Char := '"' :: s.toList.flatMap escape ++ ['"']

def Number.print : Number → List Char
  | .natural n => Nat.toDigits 10 n.toNat
  | .negative n => '-' :: Nat.toDigits 10 n.toInt.natAbs
  | .double x => if x.isFinite then (Decimal.jsonText x).toList else "null".toList

def commaed : List (List Char) → List Char
  | [] => []
  | [x] => x
  | x :: r => x ++ ',' :: commaed r

mutual

def print : Json → List Char
  | .null => "null".toList
  | .bool b => if b then "true".toList else "false".toList
  | .number n => n.print
  | .string s => quote s
  | .array items => '[' :: commaed (printItems items) ++ [']']
  | .object members => '{' :: commaed (printMembers members) ++ ['}']

def printItems : List Json → List (List Char)
  | [] => []
  | v :: r => print v :: printItems r

def printMembers : List (String × Json) → List (List Char)
  | [] => []
  | (n, v) :: r => (quote n ++ ':' :: print v) :: printMembers r

end

def toText (v : Json) : String := String.ofList (print v)

end Countersign.Json
