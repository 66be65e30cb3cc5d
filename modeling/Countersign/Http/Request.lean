import Countersign.Http.Header
import Countersign.Http.Target

/-!
# HTTP requests

A request without its body: method, target and headers.
-/

set_option autoImplicit false

namespace Countersign.Http

structure Request where
  method : Method := .get
  target : Target := .root
  headers : Headers := []

def contentTypeName : HeaderName := ⟨"content-type", by decide⟩

def Request.contentType? (r : Request) : Option String := r.headers.text? contentTypeName

end Countersign.Http
