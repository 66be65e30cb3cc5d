import Countersign.Canonical.Body
import Countersign.Canonical.Query
import Countersign.Digest.Md5
import Countersign.Encoding.Hex

/-!
# Canonical requests

What a signature covers: method, path, nonce, timestamp, canonical query and
body text. There are two spellings. The digest form names its fields on one line
and holds query and body by their digests; the lines form has one field or two
to a line and holds query and body themselves.
-/

set_option autoImplicit false

namespace Countersign

structure CanonicalRequest where
  method : String
  path : String
  nonce : String
  timestamp : String
  query : Option String
  body : Option String
deriving DecidableEq, Repr

namespace CanonicalRequest

/-- The canonical request of a method, a path, a nonce, a timestamp, a raw query and a body text.
The method is in upper case, and an empty body counts as none. -/
def of (method path nonce timestamp : String) (query body : Option String) : CanonicalRequest where
  method := String.ofList (method.toList.map Char.toUpper)
  path := path
  nonce := nonce
  timestamp := timestamp
  query := query.bind Query.canonical?
  body := body.filter fun b => b ≠ ""

def md5Hex (s : String) : String := String.ofList (Hex.encode (Md5.digest (Utf8.ofString s)))

def digestField (name : String) : Option String → String
  | none => ""
  | some s => "&" ++ name ++ "=" ++ md5Hex s

def digestForm (r : CanonicalRequest) : String :=
  "method=" ++ r.method ++ "&requestPath=" ++ r.path ++ "&nonce=" ++ r.nonce ++ "&timestamp=" ++
    r.timestamp ++ digestField "queryStringMd5" r.query ++ digestField "requestBodyMd5" r.body

/-- Five lines: method and path, timestamp, nonce, query, body. -/
def linesForm (r : CanonicalRequest) : String :=
  r.method ++ " " ++ r.path ++ "\n" ++ r.timestamp ++ "\n" ++ r.nonce ++ "\n" ++ r.query.getD "" ++
    "\n" ++ r.body.getD "" ++ "\n"

end CanonicalRequest

end Countersign
