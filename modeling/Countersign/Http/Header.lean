import Countersign.Http.Method
import Countersign.Text.Utf8

/-!
# HTTP headers

Names are lower-case tokens of bounded length. Values are bytes without control
characters other than the tab. A header section is a list of pairs in the order
in which they were added; the first value of a name is the one that counts.
-/

set_option autoImplicit false

namespace Countersign.Http

def maxNameLength : Nat := 65535

def isName (cs : List Char) : Bool :=
  isToken cs && cs.all (!·.isUpper) && decide (cs.length ≤ maxNameLength)

structure HeaderName where
  text : String
  wellFormed : isName text.toList = true
deriving DecidableEq

def HeaderName.ofString? (s : String) : Option HeaderName :=
  let cs := s.toList.map Char.toLower
  if h : isName cs = true then some ⟨String.ofList cs, by rw [String.toList_ofList]; exact h⟩
  else none

def isValueByte (b : UInt8) : Bool := b = 0x09 || (0x20 ≤ b && b ≠ 0x7f)

structure HeaderValue where
  bytes : Bytes
  valid : bytes.all isValueByte = true
deriving DecidableEq

def HeaderValue.ofString? (s : String) : Option HeaderValue :=
  let b := Utf8.ofString s
  if h : b.all isValueByte = true then some ⟨b, h⟩ else none

def isReadable (b : UInt8) : Bool := b = 0x09 || (0x20 ≤ b && b < 0x7f)

def HeaderValue.text? (v : HeaderValue) : Option String :=
  if v.bytes.all isReadable then some (String.ofList (v.bytes.map fun b => Char.ofNat b.toNat))
  else none

abbrev Headers := List (HeaderName × HeaderValue)

namespace Headers

def get? (h : Headers) (name : HeaderName) : Option HeaderValue := h.lookup name

def text? (h : Headers) (name : HeaderName) : Option String := (h.get? name).bind (·.text?)

def append (h : Headers) (name : HeaderName) (v : HeaderValue) : Headers := h ++ [(name, v)]

def remove (h : Headers) (name : HeaderName) : Headers := h.filter fun p => p.1 ≠ name

def insert (h : Headers) (name : HeaderName) (v : HeaderValue) : Headers := (h.remove name).append name v

end Headers

end Countersign.Http
