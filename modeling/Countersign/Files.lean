import Countersign.Bytes
import Countersign.Text.Utf8

/-!
# Files

A snapshot of files under their absolute paths. Looking a path up walks along its
names: an empty name and `.` stay in the directory, `..` leaves it. A path that is
not absolute names nothing.
-/

set_option autoImplicit false

namespace Countersign

inductive ReadFailure where
  | notFound
  | isDirectory
  | notDirectory
  | nameTooLong
  | nameHasNul
deriving DecidableEq, Repr

def ReadFailure.message : ReadFailure → String
  | notFound => "No such file or directory (os error 2)"
  | isDirectory => "Is a directory (os error 21)"
  | notDirectory => "Not a directory (os error 20)"
  | nameTooLong => "File name too long (os error 36)"
  | nameHasNul => "file name contained an unexpected NUL byte"

/-- Files, each under the names that lead to it from the root. -/
structure Files where
  entries : List (List String × Bytes) := []

namespace Files

inductive Found where
  | file (contents : Bytes)
  | directory (names : List String)

def names (path : String) : List String := (path.toList.splitOn '/').map String.ofList

def insert (fs : Files) (path : String) (contents : Bytes) : Files :=
  ⟨((names path).filter (· ≠ ""), contents) :: fs.entries⟩

def at? (fs : Files) (names : List String) : Option Found :=
  match fs.entries.lookup names with
  | some contents => some (.file contents)
  | none =>
    if names = [] ∨ fs.entries.any (fun e => names.isPrefixOf e.1) then some (.directory names) else none

def maxName : Nat := 255

def maxPath : Nat := 4095

def walk (fs : Files) : Found → List String → Except ReadFailure Found
  | found, [] => .ok found
  | .file _, _ :: _ => .error .notDirectory
  | .directory here, name :: rest =>
    if name = "" ∨ name = "." then walk fs (.directory here) rest
    else if name = ".." then walk fs (.directory here.dropLast) rest
    else if maxName < name.utf8ByteSize then .error .nameTooLong
    else
      match fs.at? (here ++ [name]) with
      | some found => walk fs found rest
      | none => .error .notFound

def find (fs : Files) (path : String) : Except ReadFailure Found :=
  if path.toList.contains '\x00' then .error .nameHasNul
  else if maxPath < path.utf8ByteSize then .error .nameTooLong
  else
    match names path with
    | "" :: r@(_ :: _) => fs.walk (.directory []) r
    | _ => .error .notFound

def read (fs : Files) (path : String) : Except ReadFailure Bytes :=
  match fs.find path with
  | .ok (.file contents) => .ok contents
  | .ok (.directory _) => .error .isDirectory
  | .error e => .error e

def pathExists (fs : Files) (path : String) : Bool := (fs.find path).isOk

end Files

end Countersign
