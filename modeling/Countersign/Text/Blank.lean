/-!
# White space

The characters with the Unicode property White_Space, and the trimming of a text
at both ends. Header values and signatures are trimmed before they are read.
-/

set_option autoImplicit false

namespace Countersign.Text

def isBlank (c : Char) : Bool :=
  let n := c.toNat
  (9 ≤ n && n ≤ 13) || n = 0x20 || n = 0x85 || n = 0xa0 || n = 0x1680 ||
  (0x2000 ≤ n && n ≤ 0x200a) || n = 0x2028 || n = 0x2029 || n = 0x202f || n = 0x205f || n = 0x3000

def trimEnd (p : Char → Bool) (cs : List Char) : List Char := (cs.reverse.dropWhile p).reverse

def trimBy (p : Char → Bool) (cs : List Char) : List Char := trimEnd p (cs.dropWhile p)

def trim (cs : List Char) : List Char := trimBy isBlank cs

def splitOnce (c : Char) : List Char → Option (List Char × List Char)
  | [] => none
  | d :: r => if d = c then some ([], r) else (splitOnce c r).map fun p => (d :: p.1, p.2)

def upperAscii (c : Char) : Char := c.toUpper

def lowerAscii (c : Char) : Char := c.toLower

def eqIgnoreAsciiCase (s t : List Char) : Bool := s.map lowerAscii == t.map lowerAscii

end Countersign.Text
