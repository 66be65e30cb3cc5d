import Countersign.Text.Blank
import Countersign.Text.Utf8

/-!
# Signed bodies

A body takes part in the signature when its content type says that it is JSON or
a form. It enters as text.
-/

set_option autoImplicit false

namespace Countersign.Body

def signedTypes : List String := ["application/json", "application/x-www-form-urlencoded"]

def mediaType (contentType : String) : List Char :=
  Text.trim (contentType.toList.takeWhile (· ≠ ';'))

def participates : Option String → Bool
  | none => false
  | some t => signedTypes.any fun s => Text.eqIgnoreAsciiCase (mediaType t) s.toList

def signedText (contentType : Option String) (body : Bytes) : Option String :=
  if participates contentType then some (Utf8.toStringLossy body) else none

end Countersign.Body
