import Countersign.Http.Method
import Countersign.Text.Utf8

/-!
# Request targets

The path and the query of a request target, in its four forms: a path, a full
URL, an authority, or an asterisk. The fragment is dropped. A path may hold
every character but the space, the angle brackets, the grave accent and control
characters; a query every character but the space, the double quote, the angle
brackets and control characters.
-/

set_option autoImplicit false

namespace Countersign.Http

def isPathChar (c : Char) : Bool :=
  0x20 < c.toNat && c ≠ '<' && c ≠ '>' && c ≠ '`' && c ≠ '#' && c ≠ '?'

def isQueryChar (c : Char) : Bool :=
  0x20 < c.toNat && c ≠ '"' && c ≠ '<' && c ≠ '>' && c ≠ '#'

structure Target where
  path : String
  query : Option String
  path_valid : path.toList.all isPathChar = true
  query_valid : query.all (·.toList.all isQueryChar) = true
deriving DecidableEq

namespace Target

def ofParts? (path : List Char) (query : Option (List Char)) : Option Target :=
  let p := String.ofList path
  let q := query.map String.ofList
  if h : p.toList.all isPathChar = true ∧ q.all (·.toList.all isQueryChar) = true then
    some ⟨p, q, h.1, h.2⟩
  else none

/-- A path and a query, up to the fragment. An empty path stands for the root. -/
def ofPathAndQuery? (cs : List Char) : Option Target :=
  let cs := cs.takeWhile (· ≠ '#')
  let path := cs.takeWhile (· ≠ '?')
  let path := if path = [] then ['/'] else path
  match cs.dropWhile (· ≠ '?') with
  | [] => ofParts? path none
  | _ :: query => ofParts? path (some query)

def isSchemeChar (c : Char) : Bool := c.isAlphanum || "+-.~".toList.contains c

def afterScheme? (cs : List Char) : Option (List Char) :=
  let scheme := cs.takeWhile isSchemeChar
  match cs.drop scheme.length with
  | ':' :: '/' :: '/' :: r => if 3 < cs.length then some r else none
  | _ => none

def isAuthorityChar (c : Char) : Bool := c.isAlphanum || "!$&'()*+,-.:;=@[]_~".toList.contains c

/-- What has been seen of an authority: colons, brackets, percent signs, and whether the last
character was an at sign. -/
structure Scan where
  colons : Nat := 0
  opened : Bool := false
  closed : Bool := false
  percent : Bool := false
  atEnd : Bool := false

def Scan.step (s : Scan) (c : Char) : Option Scan :=
  let s := { s with atEnd := false }
  if c = ':' then if 8 ≤ s.colons then none else some { s with colons := s.colons + 1 }
  else if c = '[' then if s.percent || s.opened then none else some { s with opened := true }
  else if c = ']' then
    if !s.opened || s.closed then none else some { s with closed := true, colons := 0, percent := false }
  else if c = '@' then some { s with atEnd := true, colons := 0, percent := false }
  else if c = '%' then some { s with percent := true }
  else if isAuthorityChar c then some s
  else none

/-- An authority: balanced brackets, at most one colon outside them, a host behind the user part, and
percent signs in the user part only. -/
def isAuthority (cs : List Char) : Bool :=
  match cs.foldlM Scan.step {} with
  | some s => s.opened == s.closed && s.colons ≤ 1 && !s.atEnd && !s.percent
  | none => false

def endsAuthority (c : Char) : Bool := c = '/' || c = '?' || c = '#'

def maxLength : Nat := 65534

def ofString? (s : String) : Option Target :=
  let cs := s.toList
  if maxLength < (Utf8.encode cs).length then none
  else
    match cs with
    | [] => none
    | ['*'] => ofParts? ['*'] none
    | '/' :: _ => ofPathAndQuery? cs
    | _ =>
      match afterScheme? cs with
      | some r =>
        let authority := r.takeWhile (!endsAuthority ·)
        if authority ≠ [] ∧ isAuthority authority then
          ofPathAndQuery? (r.dropWhile (!endsAuthority ·))
        else none
      | none => if isAuthority cs then ofParts? [] none else none

def root : Target := ⟨"/", none, by decide, rfl⟩

end Target

end Countersign.Http
