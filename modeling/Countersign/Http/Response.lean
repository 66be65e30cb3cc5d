import Countersign.Bytes

/-!
# HTTP responses and bodies

A response is a status, headers and a text. A body is a stream of chunks that
may fail at its end.
-/

set_option autoImplicit false

namespace Countersign.Http

structure Response where
  status : Nat
  headers : List (String × String) := []
  body : String := ""
deriving DecidableEq, Repr

/-- A body: its chunks, and whether it fails after them. -/
structure Body where
  chunks : List Bytes := []
  fails : Bool := false
deriving DecidableEq, Repr

namespace Body

def ofBytes (b : Bytes) : Body := ⟨[b], false⟩

def bytes? (b : Body) : Option Bytes := if b.fails then none else some b.chunks.flatten

def collect? (limit : Nat) (b : Body) : Option Bytes :=
  b.bytes?.filter fun x => x.length ≤ limit

end Body

end Countersign.Http
