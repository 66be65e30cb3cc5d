import Countersign.Account.Basic

/-!
# Account directories

Accounts by id and version. A look-up with a version takes the account of
exactly that version, and failing that the one without a version; a look-up
without a version takes only the latter. Inserting an account replaces the one
of the same id and version.
-/

set_option autoImplicit false

namespace Countersign

abbrev Resolver := String → Option String → Except SignatureError (Option Account)

structure Directory where
  accounts : List Account := []

namespace Directory

def isAt (accessId : String) (version : Option String) (a : Account) : Bool :=
  a.accessId == accessId && a.version == version

def insert (d : Directory) (a : Account) : Directory :=
  ⟨a :: d.accounts.filter fun b => !isAt a.accessId a.version b⟩

def ofList (accounts : List Account) : Directory := accounts.foldl insert {}

def size (d : Directory) : Nat := d.accounts.length

def find? (d : Directory) (accessId : String) (version : Option String) : Option Account :=
  d.accounts.find? (isAt accessId version)

/-- The account for this id and version, or the one without version. -/
def resolve (d : Directory) (accessId : String) (version : Option String) : Option Account :=
  (d.find? accessId version).or (if version.isSome then d.find? accessId none else none)

def resolver (d : Directory) : Resolver := fun accessId version => .ok (d.resolve accessId version)

end Directory

end Countersign
