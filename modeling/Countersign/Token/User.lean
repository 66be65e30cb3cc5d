import Countersign.Json.Printer
import Countersign.Json.Reader

/-!
# Users

Who an access token speaks for: an id, a name, and attributes of any JSON value.
Attributes are kept in the order of their names, each name once.
-/

set_option autoImplicit false

namespace Countersign

/-- Named values in the order of their names, each name once. -/
structure Attributes where
  entries : List (String × Json) := []
  sorted : entries.Pairwise fun a b => a.1 < b.1 := by exact List.Pairwise.nil

namespace Attributes

def place (name : String) (value : Json) : List (String × Json) → List (String × Json)
  | [] => [(name, value)]
  | e :: r =>
    if name < e.1 then (name, value) :: e :: r
    else if e.1 < name then e :: place name value r
    else (name, value) :: r

theorem mem_place {name : String} {value : Json} {l : List (String × Json)} {x : String × Json}
    (h : x ∈ place name value l) : x = (name, value) ∨ x ∈ l := by
  induction l with
  | nil => simpa [place] using h
  | cons e r ih =>
    simp only [place] at h
    split at h
    · simpa using h
    · split at h
      · rcases List.mem_cons.1 h with h | h
        · exact .inr (h ▸ List.mem_cons_self)
        · exact (ih h).imp id (List.mem_cons_of_mem _)
      · rcases List.mem_cons.1 h with h | h
        · exact .inl h
        · exact .inr (List.mem_cons_of_mem _ h)

theorem sorted_place (name : String) (value : Json) {l : List (String × Json)}
    (h : l.Pairwise fun a b => a.1 < b.1) : (place name value l).Pairwise fun a b => a.1 < b.1 := by
  induction l with
  | nil => simp [place]
  | cons e r ih =>
    obtain ⟨he, hr⟩ := List.pairwise_cons.1 h
    simp only [place]
    split
    · next hn =>
      refine List.pairwise_cons.2 ⟨fun x hx => ?_, h⟩
      rcases List.mem_cons.1 hx with hx | hx
      · exact hx ▸ hn
      · exact String.lt_trans hn (he x hx)
    · split
      · next hn =>
        refine List.pairwise_cons.2 ⟨fun x hx => ?_, ih hr⟩
        rcases mem_place hx with hx | hx
        · exact hx ▸ hn
        · exact he x hx
      · next h₁ h₂ =>
        have heq : name = e.1 := String.le_antisymm h₂ h₁
        exact List.pairwise_cons.2 ⟨fun x hx => by simpa [heq] using he x hx, hr⟩

def insert (a : Attributes) (name : String) (value : Json) : Attributes :=
  ⟨place name value a.entries, sorted_place name value a.sorted⟩

def ofList (l : List (String × Json)) : Attributes :=
  l.foldl (fun a e => a.insert e.1 e.2) {}

def size (a : Attributes) : Nat := a.entries.length

end Attributes

structure User where
  id : String
  name : String
  attributes : Attributes := {}

namespace User

def withAttribute (u : User) (name : String) (value : Json) : User :=
  { u with attributes := u.attributes.insert name value }

/-- The user as JSON; attributes are left out when there are none. -/
def toJson (u : User) : Json :=
  .object
    ([("id", .string u.id), ("userName", .string u.name)] ++
      match u.attributes.entries with
      | [] => []
      | entries => [("attributes", .object entries)])

def attributesOfNode? (depth : Nat) : Json.Node → Option Attributes
  | .object members => (Json.namedValues? (depth + 1) members).map Attributes.ofList
  | _ => none

/-- Reads a user inside `depth` objects: an object, or an array of its members in order. -/
def ofNode? (depth : Nat) (x : Json.Node) : Option User := do
  match ← x.fields? ["id", "userName", "attributes"] with
  | [some id, some name, attributes] =>
    let attributes ← Json.field? {} (attributesOfNode? (depth + 1)) attributes
    return ⟨← id.text?, ← name.text?, attributes⟩
  | _ => none

def ofText? (text : String) : Option User := do ofNode? 0 (← Json.Node.ofText? text.toList)

end User

end Countersign
