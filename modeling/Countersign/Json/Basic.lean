/-!
# JSON values

A number is a 64-bit integer where it can be, and a double otherwise. The
members of an object keep the order of their first mention; a later mention of
a name replaces the value in place.
-/

set_option autoImplicit false

namespace Countersign

inductive Json.Number where
  | natural (n : UInt64)
  | negative (n : Int64)
  | double (x : Float)

inductive Json where
  | null
  | bool (b : Bool)
  | number (n : Json.Number)
  | string (s : String)
  | array (items : List Json)
  | object (members : List (String × Json))

namespace Json

instance : Inhabited Json := ⟨.null⟩

/-- Sets a member, in place if the name is there already and at the end if not. -/
def put {α : Type} (members : List (String × α)) (name : String) (value : α) : List (String × α) :=
  match members with
  | [] => [(name, value)]
  | (n, v) :: r => if n = name then (n, value) :: r else (n, v) :: put r name value

def ofMembers (members : List (String × Json)) : Json :=
  .object (members.foldl (fun acc m => put acc m.1 m.2) [])

def get? (v : Json) (name : String) : Option Json :=
  match v with
  | .object members => members.lookup name
  | _ => none

def ofUInt64 (n : UInt64) : Json := .number (.natural n)

def ofInt64 (n : Int64) : Json :=
  if 0 ≤ n then .number (.natural n.toUInt64) else .number (.negative n)

def ofNat (n : Nat) : Json := ofUInt64 (UInt64.ofNat n)

theorem lookup_put_self {α : Type} (members : List (String × α)) (name : String) (value : α) :
    (put members name value).lookup name = some value := by
  induction members with
  | nil => simp [put]
  | cons m r ih =>
    by_cases h : m.1 = name
    · simp [put, h]
    · have hb : (name == m.1) = false := by simpa using fun e => h e.symm
      rw [put, if_neg h, List.lookup_cons]
      simp only [hb]
      exact ih

end Json

end Countersign
