/-!
# HTTP methods and tokens

A token is a run of visible ASCII characters without separators. A method is a
token that is not empty; its case matters.
-/

set_option autoImplicit false

namespace Countersign.Http

def isTokenChar (c : Char) : Bool :=
  c.isAlphanum || "!#$%&'*+-.^_`|~".toList.contains c

def isToken (cs : List Char) : Bool := !cs.isEmpty && cs.all isTokenChar

structure Method where
  text : String
  wellFormed : isToken text.toList = true
deriving DecidableEq

def Method.ofString? (s : String) : Option Method :=
  if h : isToken s.toList = true then some ⟨s, h⟩ else none

def Method.get : Method := ⟨"GET", by decide⟩

end Countersign.Http
