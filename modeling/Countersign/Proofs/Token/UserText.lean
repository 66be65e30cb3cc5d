import Countersign.Proofs.Json.Values
import Countersign.Token.User

/-!
# Users read back

A user that was read has attributes that stand in order, each name once, and that
are nested no deeper than its reader goes. Written out, such a user is read back
wherever there is room for the attributes, and nowhere else.
-/

set_option autoImplicit false

namespace Countersign

namespace Attributes

theorem place_last (name : String) (value : Json) (l : List (String × Json))
    (h : ∀ e ∈ l, e.1 < name) : place name value l = l ++ [(name, value)] := by
  induction l with
  | nil => rfl
  | cons e l ih =>
    have he : e.1 < name := h e List.mem_cons_self
    rw [place, if_neg (String.lt_asymm he), if_pos he,
      ih fun x hx => h x (List.mem_cons_of_mem _ hx), List.cons_append]

theorem insert_all_sorted (a : Attributes) (l : List (String × Json))
    (h : (a.entries ++ l).Pairwise fun x y => x.1 < y.1) :
    (l.foldl (fun a e => a.insert e.1 e.2) a).entries = a.entries ++ l := by
  induction l generalizing a with
  | nil => rw [List.foldl_nil, List.append_nil]
  | cons e l ih =>
    have hlast : ∀ x ∈ a.entries, x.1 < e.1 := fun x hx =>
      (List.pairwise_append.mp h).2.2 x hx e List.mem_cons_self
    have hentries : (a.insert e.1 e.2).entries = a.entries ++ [e] :=
      place_last e.1 e.2 a.entries hlast
    rw [List.foldl_cons, ih, hentries, List.append_assoc, List.singleton_append]
    rwa [hentries, List.append_assoc, List.singleton_append]

theorem of_entries (a : Attributes) : ofList a.entries = a := by
  have hentries : (ofList a.entries).entries = a.entries := insert_all_sorted {} a.entries a.sorted
  obtain ⟨entries, sorted⟩ := a
  generalize ofList entries = b at hentries
  obtain ⟨_, _⟩ := b
  cases hentries
  rfl

theorem mem_insert_all (a : Attributes) (l : List (String × Json)) (x : String × Json)
    (h : x ∈ (l.foldl (fun a e => a.insert e.1 e.2) a).entries) : x ∈ a.entries ∨ x ∈ l := by
  induction l generalizing a with
  | nil => exact Or.inl h
  | cons e l ih =>
    rcases ih (a.insert e.1 e.2) h with h | h
    · rcases mem_place h with rfl | h
      · exact Or.inr List.mem_cons_self
      · exact Or.inl h
    · exact Or.inr (List.mem_cons_of_mem _ h)

theorem mem_of_list (l : List (String × Json)) (x : String × Json) (h : x ∈ (ofList l).entries) :
    x ∈ l :=
  (mem_insert_all {} l x h).resolve_left (List.not_mem_nil)

end Attributes

namespace User

open Json (Node)

def depth (u : User) : Nat := Json.namedDepths u.attributes.entries

def Exact (u : User) : Prop := ∀ e ∈ u.attributes.entries, e.2.Exact

def Tidy (u : User) : Prop := ∀ e ∈ u.attributes.entries, e.2.Tidy

theorem json_exact (u : User) (h : u.Exact) : u.toJson.Exact := by
  have hattributes : ∀ entries, entries = u.attributes.entries → (Json.object entries).Exact :=
    fun entries hentries => .object entries fun e he => h e (hentries ▸ he)
  refine .object _ fun m hm => ?_
  rcases List.mem_append.mp hm with hm | hm
  · simp only [List.mem_cons, List.not_mem_nil, or_false] at hm
    rcases hm with rfl | rfl
    · exact .string u.id
    · exact .string u.name
  · split at hm
    · cases hm
    · rw [List.mem_singleton.mp hm]
      exact hattributes _ rfl

theorem attributes_again (u : User) (hexact : u.Exact) (htidy : u.Tidy) (d : Nat)
    (hd : d + 1 ≤ Json.maxDepth) :
    attributesOfNode? d (Json.object u.attributes.entries).node =
      if d + 1 + u.depth ≤ Json.maxDepth then some u.attributes else none := by
  rw [Json.node, attributesOfNode?, Json.named_again (d + 1) u.attributes.entries hd
    fun e he => Json.value_again e.2 (hexact e he) (htidy e he), depth]
  split
  · rw [Option.map_some, Attributes.of_entries]
  · rfl

theorem fields_bare (u : User) (h : u.attributes.entries = []) :
    u.toJson.node.fields? ["id", "userName", "attributes"] =
      some [some (Json.string u.id).node, some (Json.string u.name).node, none] := by
  rw [toJson, h, Json.fields_written _ (by simp)]
  simp [Json.under_named]

theorem fields_full (u : User) (h : u.attributes.entries ≠ []) :
    u.toJson.node.fields? ["id", "userName", "attributes"] =
      some [some (Json.string u.id).node, some (Json.string u.name).node,
        some (Json.object u.attributes.entries).node] := by
  obtain ⟨e, l, hentries⟩ := List.exists_cons_of_ne_nil h
  rw [toJson, hentries, Json.fields_written _ (by simp)]
  simp [Json.under_named]

theorem of_node_again (u : User) (hexact : u.Exact) (htidy : u.Tidy) (d : Nat)
    (hd : d + 2 ≤ Json.maxDepth) : ofNode? d u.toJson.node =
      if d + 2 + u.depth ≤ Json.maxDepth then some u else none := by
  by_cases h : u.attributes.entries = []
  · have hempty : u.attributes = {} := by rw [← Attributes.of_entries u.attributes, h]; rfl
    have hdepth : u.depth = 0 := by rw [depth, h]; rfl
    rw [ofNode?, fields_bare u h, if_pos (by omega)]
    simp [Json.field?, Json.node_text, ← hempty]
  · rw [ofNode?, fields_full u h]
    have hattributes := attributes_again u hexact htidy (d + 1) hd
    simp only [Json.field?, Option.bind_eq_bind, Option.bind_some, Json.node_text, hattributes]
    split <;> rfl

theorem attributes_given (d : Nat) (x : Option Node) (a : Attributes)
    (hd : d + 1 ≤ Json.maxDepth) (h : Json.field? {} (attributesOfNode? d) x = some a) :
    ∀ e ∈ a.entries, Json.Given (d + 1) e.2 := by
  cases x with
  | none =>
    cases h
    simp
  | some x =>
    cases x with
    | object members =>
      obtain ⟨vs, hvs, rfl⟩ := Option.map_eq_some_iff.mp h
      intro e he
      exact Json.named_given (d + 1) members vs hd hvs e (Attributes.mem_of_list vs e he)
    | _ => cases h

theorem of_node_given (d : Nat) (x : Node) (u : User) (hd : d + 2 ≤ Json.maxDepth)
    (h : ofNode? d x = some u) : u.Tidy ∧ d + 2 + u.depth ≤ Json.maxDepth := by
  have hgiven : ∀ e ∈ u.attributes.entries, Json.Given (d + 2) e.2 := by
    obtain ⟨xs, _, h⟩ := Option.bind_eq_some_iff.mp h
    split at h
    · next _ _ attributes _ =>
      obtain ⟨a, ha, h⟩ := Option.bind_eq_some_iff.mp h
      obtain ⟨id, _, h⟩ := Option.bind_eq_some_iff.mp h
      obtain ⟨name, _, h⟩ := Option.bind_eq_some_iff.mp h
      cases h
      intro e he
      exact attributes_given (d + 1) attributes a hd ha e he
    · cases h
  have hdepth := (Json.named_depths_le u.attributes.entries (Json.maxDepth - (d + 2))).mpr
    fun e he => by
      have hroom := (hgiven e he).room
      omega
  exact ⟨fun e he => (hgiven e he).tidy, by rw [depth]; omega⟩

theorem of_text_given (text : String) (u : User) (h : ofText? text = some u) :
    u.Tidy ∧ u.depth ≤ 125 := by
  obtain ⟨x, _, h⟩ := Option.bind_eq_some_iff.mp h
  obtain ⟨htidy, hroom⟩ := of_node_given 0 x u (by decide) h
  refine ⟨htidy, ?_⟩
  rw [Json.maxDepth] at hroom
  omega

/-- A user that was read from a text on its own is read back from its own text. -/
theorem of_text_again (u : User) (hexact : u.Exact) (htidy : u.Tidy) (hdepth : u.depth ≤ 125) :
    ofText? u.toJson.toText = some u := by
  have hroom : 0 + 2 + u.depth ≤ Json.maxDepth := by
    rw [Json.maxDepth]
    omega
  rw [ofText?, Json.toText, String.toList_ofList, Json.node_of_print _ (json_exact u hexact),
    Option.bind_eq_bind, Option.bind_some, of_node_again u hexact htidy 0 (by decide), if_pos hroom]

end User

end Countersign
