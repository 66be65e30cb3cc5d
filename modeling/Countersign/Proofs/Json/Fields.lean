import Countersign.Json.Reader

/-!
# The fields of a JSON object

The fields of an object are found by name among its members. They are found if
the names of all members can be read and none of the fields is there twice;
further members do not matter.
-/

set_option autoImplicit false

namespace Countersign.Json

variable (members : List (List StringPart × Node))

def under (name : String) : List Node :=
  (members.filter fun m => decide (textOfParts? m.1 = some name)).map (·.2)

/-- A value is told under a name once, as `read` takes it out of the node there. -/
def Tells {α : Type} (name : String) (read : Node → Option α) (value : α) : Prop :=
  ∃ x, under members name = [x] ∧ read x = some value

structure Fielded (names : List String) : Prop where
  readable : ∀ m ∈ members, (textOfParts? m.1).isSome = true
  once : ∀ name ∈ names, (under members name).length ≤ 1

def Node.members? : Node → Option (List (List StringPart × Node))
  | .object members => some members
  | _ => none

theorem members_iff (x : Node) : x.members? = some members ↔ x = .object members := by
  cases x <;> simp [Node.members?]

theorem head_under (name : String) (x : Node) (h : (under members name).length ≤ 1) :
    (under members name).head? = some x ↔ under members name = [x] := by
  match hx : under members name with
  | [] => simp
  | [y] => simp
  | y :: z :: r =>
    rw [hx] at h
    simp at h

theorem head_under_none (name : String) :
    (under members name).head? = none ↔ under members name = [] :=
  List.head?_eq_none_iff

theorem named_under (named : List (String × Node))
    (h : members.mapM (fun m => do return (← textOfParts? m.1, m.2)) = some named) (name : String) :
    (named.filter (·.1 == name)).map (·.2) = under members name := by
  induction members generalizing named with
  | nil =>
    cases h
    rfl
  | cons m members ih =>
    rw [List.mapM_cons] at h
    obtain ⟨p, hp, h⟩ := Option.bind_eq_some_iff.mp h
    obtain ⟨rest, hrest, h⟩ := Option.bind_eq_some_iff.mp h
    obtain ⟨text, htext, hpair⟩ := Option.bind_eq_some_iff.mp hp
    cases h
    cases hpair
    have htail := ih rest hrest
    rw [under] at htail ⊢
    by_cases hname : text = name
    · subst hname
      simp [htext, htail]
    · simp [htext, hname, htail]

theorem named_iff_readable :
    (∃ named, members.mapM (fun m => do return (← textOfParts? m.1, m.2)) = some named) ↔
      ∀ m ∈ members, (textOfParts? m.1).isSome = true := by
  induction members with
  | nil => simp
  | cons m members ih =>
    rw [List.forall_mem_cons, ← ih, List.mapM_cons]
    constructor
    · rintro ⟨named, h⟩
      obtain ⟨p, hp, h⟩ := Option.bind_eq_some_iff.mp h
      obtain ⟨rest, hrest, _⟩ := Option.bind_eq_some_iff.mp h
      obtain ⟨text, htext, _⟩ := Option.bind_eq_some_iff.mp hp
      exact ⟨by rw [htext]; rfl, rest, hrest⟩
    · rintro ⟨htext, rest, hrest⟩
      obtain ⟨text, htext⟩ := Option.isSome_iff_exists.mp htext
      exact ⟨(text, m.2) :: rest, by rw [htext, hrest]; rfl⟩

theorem only_one (found : List (String × Node)) (x : Option Node) :
    (match found with
      | [] => some none
      | [m] => some (some m.2)
      | _ => none) = some x ↔ (found.map (·.2)).length ≤ 1 ∧ x = (found.map (·.2)).head? := by
  match found with
  | [] =>
    rw [Option.some.injEq]
    exact ⟨fun h => ⟨Nat.zero_le _, h.symm⟩, fun h => h.2.symm⟩
  | [m] =>
    rw [Option.some.injEq]
    exact ⟨fun h => ⟨Nat.le_refl _, h.symm⟩, fun h => h.2.symm⟩
  | m :: n :: r =>
    constructor
    · intro h
      cases h
    · intro h
      exact absurd h.1 (by simp)

theorem map_throughout {α β : Type} (f : α → Option β) (P : α → Prop) (g : α → β)
    (hf : ∀ a b, f a = some b ↔ P a ∧ b = g a) (l : List α) (bs : List β) :
    l.mapM f = some bs ↔ (∀ a ∈ l, P a) ∧ bs = l.map g := by
  induction l generalizing bs with
  | nil => simp [eq_comm]
  | cons a l ih =>
    rw [List.mapM_cons, List.forall_mem_cons, List.map_cons]
    constructor
    · intro h
      obtain ⟨b, hb, h⟩ := Option.bind_eq_some_iff.mp h
      obtain ⟨rest, hrest, h⟩ := Option.bind_eq_some_iff.mp h
      cases h
      obtain ⟨ha, rfl⟩ := (hf a b).mp hb
      obtain ⟨hl, rfl⟩ := (ih rest).mp hrest
      exact ⟨⟨ha, hl⟩, rfl⟩
    · rintro ⟨⟨ha, hl⟩, rfl⟩
      rw [(hf a (g a)).mpr ⟨ha, rfl⟩, (ih (l.map g)).mpr ⟨hl, rfl⟩]
      rfl

/-- The fields of an object: what stands first under each name, provided nothing stands second. -/
theorem fields_iff (names : List String) (xs : List (Option Node)) :
    (Node.object members).fields? names = some xs ↔
      Fielded members names ∧ xs = names.map fun name => (under members name).head? := by
  have hpick : ∀ named : List (String × Node), (∀ name, (named.filter (·.1 == name)).map (·.2) =
      under members name) → ∀ name x, (match named.filter (·.1 == name) with
        | [] => some none
        | [m] => some (some m.2)
        | _ => none) = some x ↔
          (under members name).length ≤ 1 ∧ x = (under members name).head? := by
    intro named hunder name x
    rw [← hunder name]
    exact only_one _ x
  constructor
  · intro h
    obtain ⟨named, hnamed, h⟩ := Option.bind_eq_some_iff.mp h
    have hreadable := (named_iff_readable members).mp ⟨named, hnamed⟩
    obtain ⟨honce, hxs⟩ := (map_throughout _ _ _ (hpick named (named_under members named hnamed))
      names xs).mp h
    exact ⟨⟨hreadable, honce⟩, hxs⟩
  · rintro ⟨⟨hreadable, honce⟩, hxs⟩
    obtain ⟨named, hnamed⟩ := (named_iff_readable members).mpr hreadable
    exact Option.bind_eq_some_iff.mpr ⟨named, hnamed, (map_throughout _ _ _
      (hpick named (named_under members named hnamed)) names xs).mpr ⟨honce, hxs⟩⟩

theorem nullable_iff {α : Type} (read : Node → Option α) (x : Node) (value : Option α) :
    x.nullable? read = some value ↔
      (x = .null ∧ value = none) ∨ (x ≠ .null ∧ ∃ v, read x = some v ∧ value = some v) := by
  by_cases hx : x = .null
  · subst hx
    simp [Node.nullable?, eq_comm]
  · have hread : x.nullable? read = (read x).map some := by
      cases x with
      | null => exact absurd rfl hx
      | _ => rfl
    rw [hread, Option.map_eq_some_iff]
    simp [hx, eq_comm]

end Countersign.Json
