import Countersign.Proofs.Json.Fields
import Countersign.Proofs.Json.ReadBack

/-!
# What a printed value tells

The value that a text tells has each name of an object once, writes only numbers
below zero as negative, and is nested no deeper than a reader goes. Such a value, if
it has no doubles, is told again by its own text. How deep a reader goes depends on
where it starts, so a value that was told may be too deep to be told inside others.
-/

set_option autoImplicit false

namespace Countersign.Json

mutual

def depth : Json → Nat
  | .array items => depths items + 1
  | .object members => namedDepths members + 1
  | _ => 0

def depths : List Json → Nat
  | [] => 0
  | v :: r => max v.depth (depths r)

def namedDepths : List (String × Json) → Nat
  | [] => 0
  | (_, v) :: r => max v.depth (namedDepths r)

end

theorem named_depths_cons (m : String × Json) (r : List (String × Json)) :
    namedDepths (m :: r) = max m.2.depth (namedDepths r) := rfl

theorem named_depths_le (members : List (String × Json)) (k : Nat) :
    namedDepths members ≤ k ↔ ∀ m ∈ members, m.2.depth ≤ k := by
  induction members with
  | nil => simp [namedDepths]
  | cons m members ih => rw [named_depths_cons, List.forall_mem_cons, ← ih, Nat.max_le]

/-- Each name is there once, and a negative number is less than zero. -/
inductive Tidy : Json → Prop where
  | null : Tidy .null
  | bool (b : Bool) : Tidy (.bool b)
  | natural (n : UInt64) : Tidy (.number (.natural n))
  | negative (n : Int64) (h : n < 0) : Tidy (.number (.negative n))
  | double (x : Float) : Tidy (.number (.double x))
  | string (s : String) : Tidy (.string s)
  | array (items : List Json) (h : ∀ v ∈ items, Tidy v) : Tidy (.array items)
  | object (members : List (String × Json)) (hnames : (members.map (·.1)).Nodup)
      (h : ∀ m ∈ members, Tidy m.2) : Tidy (.object members)

/-! ## Names -/

theorem mem_put {α : Type} (members : List (String × α)) (name : String) (value : α)
    (m : String × α) (h : m ∈ put members name value) : m = (name, value) ∨ m ∈ members := by
  induction members with
  | nil => simpa [put] using h
  | cons n members ih =>
    rw [put] at h
    split at h
    · next hname =>
      rw [List.mem_cons] at h
      exact h.imp (fun h => by rw [h, hname]) (List.mem_cons_of_mem _)
    · rcases List.mem_cons.mp h with h | h
      · exact Or.inr (h ▸ List.mem_cons_self)
      · exact (ih h).imp id (List.mem_cons_of_mem _)

theorem put_names {α : Type} (members : List (String × α)) (name : String) (value : α)
    (h : (members.map (·.1)).Nodup) : ((put members name value).map (·.1)).Nodup := by
  induction members with
  | nil => simp [put]
  | cons n members ih =>
    rw [List.map_cons, List.nodup_cons] at h
    rw [put]
    split
    · exact List.nodup_cons.mpr h
    · next hname =>
      refine List.nodup_cons.mpr ⟨?_, ih h.2⟩
      intro hmem
      obtain ⟨m, hm, hfirst⟩ := List.mem_map.mp hmem
      rcases mem_put members name value m hm with rfl | hm
      · exact hname hfirst.symm
      · exact h.1 (List.mem_map.mpr ⟨m, hm, hfirst⟩)

theorem put_new {α : Type} (members : List (String × α)) (name : String) (value : α)
    (h : name ∉ members.map (·.1)) : put members name value = members ++ [(name, value)] := by
  induction members with
  | nil => rfl
  | cons n members ih =>
    rw [List.map_cons, List.mem_cons, not_or] at h
    rw [put, if_neg (Ne.symm h.1), ih h.2, List.cons_append]

theorem lookup_put_other {α : Type} (members : List (String × α)) (name other : String) (value : α)
    (h : other ≠ name) : (put members name value).lookup other = members.lookup other := by
  have hname : (other == name) = false := beq_eq_false_iff_ne.mpr h
  induction members with
  | nil => rw [put, List.lookup_cons, hname]
  | cons m members ih =>
    rw [put]
    split
    · next hm => rw [List.lookup_cons, List.lookup_cons, hm, hname]
    · rw [List.lookup_cons, List.lookup_cons, ih]

theorem put_all_distinct {α : Type} (acc members : List (String × α))
    (h : ((acc ++ members).map (·.1)).Nodup) :
    members.foldl (fun acc m => put acc m.1 m.2) acc = acc ++ members := by
  induction members generalizing acc with
  | nil => rw [List.foldl_nil, List.append_nil]
  | cons m members ih =>
    have hnew : m.1 ∉ acc.map (·.1) := by
      intro hmem
      rw [List.map_append, List.nodup_append] at h
      exact h.2.2 m.1 hmem m.1 List.mem_cons_self rfl
    rw [List.foldl_cons, put_new acc m.1 m.2 hnew, ih, List.append_assoc, List.singleton_append]
    rwa [List.append_assoc, List.singleton_append]

theorem of_members_distinct (members : List (String × Json)) (h : (members.map (·.1)).Nodup) :
    ofMembers members = .object members := by
  rw [ofMembers, put_all_distinct [] members h, List.nil_append]

theorem put_all_names (acc members : List (String × Json)) (h : (acc.map (·.1)).Nodup) :
    ((members.foldl (fun acc m => put acc m.1 m.2) acc).map (·.1)).Nodup := by
  induction members generalizing acc with
  | nil => exact h
  | cons m members ih => exact ih (put acc m.1 m.2) (put_names acc m.1 m.2 h)

theorem mem_put_all (acc members : List (String × Json)) (x : String × Json)
    (h : x ∈ members.foldl (fun acc m => put acc m.1 m.2) acc) : x ∈ acc ∨ x ∈ members := by
  induction members generalizing acc with
  | nil => exact Or.inl h
  | cons m members ih =>
    rcases ih (put acc m.1 m.2) h with h | h
    · rcases mem_put acc m.1 m.2 x h with rfl | h
      · exact Or.inr List.mem_cons_self
      · exact Or.inl h
    · exact Or.inr (List.mem_cons_of_mem _ h)

/-! ## A value that was told -/

structure Given (d : Nat) (v : Json) : Prop where
  tidy : v.Tidy
  room : d + v.depth ≤ maxDepth

theorem number_tidy (n : Numeral) (v : Number) (h : n.value? = some v) : Tidy (.number v) := by
  have hdouble : n.double?.map Number.double = some v → Tidy (.number v) := by
    intro h
    obtain ⟨x, _, rfl⟩ := Option.map_eq_some_iff.mp h
    exact .double x
  rw [Numeral.value?.eq_def] at h
  split at h
  · simp only at h
    split at h
    · cases h
      exact .natural _
    · split at h
      · next hneg =>
        cases h
        refine .negative _ (Int64.lt_iff_toInt_lt.mpr ?_)
        rw [Int64.toInt_ofInt_of_le (by omega) (by omega)]
        change _ < (0 : Int)
        omega
      · exact hdouble h
  · exact hdouble h

theorem object_given (d : Nat) (members : List (String × Json)) (hd : d < maxDepth)
    (h : ∀ m ∈ members, Given (d + 1) m.2) : Given d (ofMembers members) := by
  have hmem : ∀ m ∈ members.foldl (fun acc m => put acc m.1 m.2) [], Given (d + 1) m.2 :=
    fun m hm => h m ((mem_put_all [] members m hm).resolve_left (by simp))
  refine ⟨.object _ (put_all_names [] members List.nodup_nil) fun m hm => (hmem m hm).tidy, ?_⟩
  have hdepths := (named_depths_le _ (maxDepth - (d + 1))).mpr fun m hm => by
    have hroom := (hmem m hm).room
    omega
  rw [ofMembers, depth]
  omega

mutual

theorem value_given (d : Nat) (x : Node) (v : Json) (hd : d ≤ maxDepth) (h : x.value? d = some v) :
    Given d v := by
  match x with
  | .null =>
    cases h
    exact ⟨.null, hd⟩
  | .bool b =>
    cases h
    exact ⟨.bool b, hd⟩
  | .number n =>
    obtain ⟨w, hw, rfl⟩ := Option.map_eq_some_iff.mp h
    exact ⟨number_tidy n w hw, hd⟩
  | .string parts =>
    obtain ⟨s, _, rfl⟩ := Option.map_eq_some_iff.mp h
    exact ⟨.string s, hd⟩
  | .array items =>
    rw [Node.value?, Option.ite_none_right_eq_some] at h
    obtain ⟨hroom, h⟩ := h
    obtain ⟨vs, hvs, rfl⟩ := Option.map_eq_some_iff.mp h
    obtain ⟨htidy, hdepth⟩ := values_given (d + 1) items vs hroom hvs
    exact ⟨.array vs htidy, by rw [depth]; omega⟩
  | .object members =>
    rw [Node.value?, Option.ite_none_right_eq_some] at h
    obtain ⟨hroom, h⟩ := h
    obtain ⟨vs, hvs, rfl⟩ := Option.map_eq_some_iff.mp h
    exact object_given d vs hroom (named_given (d + 1) members vs hroom hvs)

theorem values_given (d : Nat) (items : List Node) (vs : List Json) (hd : d ≤ maxDepth)
    (h : values? d items = some vs) : (∀ v ∈ vs, v.Tidy) ∧ d + depths vs ≤ maxDepth := by
  match items with
  | [] =>
    cases h
    exact ⟨by simp, hd⟩
  | x :: r =>
    rw [values?] at h
    obtain ⟨v, hv, h⟩ := Option.bind_eq_some_iff.mp h
    obtain ⟨rest, hrest, h⟩ := Option.bind_eq_some_iff.mp h
    cases h
    have hfirst := value_given d x v hd hv
    obtain ⟨htidy, hdepth⟩ := values_given d r rest hd hrest
    have hroom := hfirst.room
    exact ⟨List.forall_mem_cons.mpr ⟨hfirst.tidy, htidy⟩, by rw [depths]; omega⟩

theorem named_given (d : Nat) (members : List (List StringPart × Node))
    (vs : List (String × Json)) (hd : d ≤ maxDepth) (h : namedValues? d members = some vs) :
    ∀ m ∈ vs, Given d m.2 := by
  match members with
  | [] =>
    cases h
    simp
  | (name, x) :: r =>
    rw [namedValues?] at h
    obtain ⟨n, _, h⟩ := Option.bind_eq_some_iff.mp h
    obtain ⟨v, hv, h⟩ := Option.bind_eq_some_iff.mp h
    obtain ⟨rest, hrest, h⟩ := Option.bind_eq_some_iff.mp h
    cases h
    exact List.forall_mem_cons.mpr ⟨value_given d x v hd hv, named_given d r rest hd hrest⟩

end

/-! ## A value that is told again -/

/-- Inside any number of arrays and objects, a value is told if there is room for it. -/
def ToldAgain (v : Json) : Prop :=
  ∀ d ≤ maxDepth, v.node.value? d = if d + v.depth ≤ maxDepth then some v else none

theorem values_again (d : Nat) (items : List Json) (hd : d ≤ maxDepth)
    (h : ∀ v ∈ items, v.ToldAgain) : values? d (nodes items) =
      if d + depths items ≤ maxDepth then some items else none := by
  induction items with
  | nil => rw [if_pos (by simpa [depths] using hd), nodes, values?]
  | cons v items ih =>
    rw [nodes, values?, h v List.mem_cons_self d hd, ih fun w hw => h w (List.mem_cons_of_mem _ hw),
      depths]
    by_cases hv : d + v.depth ≤ maxDepth
    · by_cases hitems : d + depths items ≤ maxDepth
      · rw [if_pos hv, if_pos hitems, if_pos (by omega)]
        rfl
      · rw [if_pos hv, if_neg hitems, if_neg (by omega)]
        rfl
    · have hmax : ¬ d + max v.depth (depths items) ≤ maxDepth := by omega
      rw [if_neg hv, if_neg hmax]
      rfl

theorem named_again (d : Nat) (members : List (String × Json)) (hd : d ≤ maxDepth)
    (h : ∀ m ∈ members, m.2.ToldAgain) : namedValues? d (namedNodes members) =
      if d + namedDepths members ≤ maxDepth then some members else none := by
  induction members with
  | nil => rw [if_pos (by simpa [namedDepths] using hd), namedNodes, namedValues?]
  | cons m members ih =>
    obtain ⟨n, v⟩ := m
    rw [namedNodes, namedValues?, text_of_parts, h (n, v) List.mem_cons_self d hd,
      ih fun w hw => h w (List.mem_cons_of_mem _ hw), namedDepths]
    by_cases hv : d + v.depth ≤ maxDepth
    · by_cases hmembers : d + namedDepths members ≤ maxDepth
      · rw [if_pos hv, if_pos hmembers, if_pos (by omega)]
        rfl
      · rw [if_pos hv, if_neg hmembers, if_neg (by omega)]
        rfl
    · have hmax : ¬ d + max v.depth (namedDepths members) ≤ maxDepth := by omega
      rw [if_neg hv, if_neg hmax]
      rfl

theorem flat_again (v : Json) (hflat : v.depth = 0) (h : ∀ d, v.node.value? d = some v) :
    v.ToldAgain := by
  intro d hd
  rw [h d, hflat, Nat.add_zero, if_pos hd]

/-- A tidy value without doubles is told again, save for what there is no room for. -/
theorem value_again (v : Json) (hexact : v.Exact) (htidy : v.Tidy) : v.ToldAgain := by
  induction hexact with
  | null => exact flat_again .null rfl fun _ => rfl
  | bool b => exact flat_again (.bool b) rfl fun _ => rfl
  | natural n =>
    apply flat_again (.number (.natural n)) rfl
    intro d
    rw [node, Node.value?, value_natural]
    rfl
  | negative n =>
    cases htidy with
    | negative _ hneg =>
      apply flat_again (.number (.negative n)) rfl
      intro d
      rw [node, Node.value?, value_negative n hneg]
      rfl
  | string s =>
    apply flat_again (.string s) rfl
    intro d
    rw [node, Node.value?, text_of_parts]
    rfl
  | array items _ ih =>
    intro d hd
    cases htidy with
    | array _ htidy =>
      rw [node, Node.value?, depth]
      by_cases hroom : d < maxDepth
      · rw [if_pos hroom, values_again (d + 1) items hroom fun v hv => ih v hv (htidy v hv),
          Nat.add_right_comm, ← Nat.add_assoc]
        split <;> rfl
      · rw [if_neg hroom, if_neg (by omega)]
  | object members _ ih =>
    intro d hd
    cases htidy with
    | object _ hnames htidy =>
      rw [node, Node.value?, depth]
      by_cases hroom : d < maxDepth
      · rw [if_pos hroom, named_again (d + 1) members hroom fun m hm => ih m hm (htidy m hm),
          Nat.add_right_comm, ← Nat.add_assoc]
        split
        · rw [Option.map_some, of_members_distinct members hnames]
        · rfl
      · rw [if_neg hroom, if_neg (by omega)]

/-! ## Members of a printed object -/

theorem under_named (members : List (String × Json)) (name : String) :
    under (namedNodes members) name =
      (members.filter fun m => decide (m.1 = name)).map fun m => m.2.node := by
  induction members with
  | nil => rfl
  | cons m members ih =>
    obtain ⟨n, v⟩ := m
    rw [under] at ih ⊢
    rw [namedNodes, List.filter_cons, List.filter_cons, text_of_parts]
    by_cases hname : n = name
    · simp [hname, ih]
    · simp [hname, ih]

theorem under_missing (members : List (String × Json)) (name : String)
    (h : name ∉ members.map (·.1)) : under (namedNodes members) name = [] := by
  rw [under_named, List.map_eq_nil_iff, List.filter_eq_nil_iff]
  intro m hm hname
  exact h (List.mem_map.mpr ⟨m, hm, of_decide_eq_true hname⟩)

theorem under_written (members : List (String × Json)) (name : String) (v : Json)
    (hnames : (members.map (·.1)).Nodup) (h : (name, v) ∈ members) :
    under (namedNodes members) name = [v.node] := by
  induction members with
  | nil => cases h
  | cons m members ih =>
    rw [List.map_cons, List.nodup_cons] at hnames
    rcases List.mem_cons.mp h with rfl | h
    · have hmissing := under_missing members name hnames.1
      rw [under_named] at hmissing ⊢
      rw [List.filter_cons_of_pos (by simp), List.map_cons, hmissing]
    · have hother : m.1 ≠ name := by
        rintro rfl
        exact hnames.1 (List.mem_map.mpr ⟨_, h, rfl⟩)
      have hrest := ih hnames.2 h
      rw [under_named] at hrest ⊢
      rw [List.filter_cons_of_neg (by simpa using hother), hrest]

theorem under_once (members : List (String × Json)) (hnames : (members.map (·.1)).Nodup)
    (name : String) : (under (namedNodes members) name).length ≤ 1 := by
  by_cases h : name ∈ members.map (·.1)
  · obtain ⟨m, hm, rfl⟩ := List.mem_map.mp h
    rw [under_written members m.1 m.2 hnames hm]
    exact Nat.le_refl 1
  · rw [under_missing members name h]
    exact Nat.zero_le 1

theorem named_readable (members : List (String × Json)) :
    ∀ m ∈ namedNodes members, (textOfParts? m.1).isSome = true := by
  induction members with
  | nil => simp [namedNodes]
  | cons m members ih =>
    obtain ⟨n, v⟩ := m
    rw [namedNodes, List.forall_mem_cons, text_of_parts]
    exact ⟨rfl, ih⟩

theorem fields_written (members : List (String × Json)) (hnames : (members.map (·.1)).Nodup)
    (names : List String) : (Json.object members).node.fields? names =
      some (names.map fun name => (under (namedNodes members) name).head?) := by
  rw [node, fields_iff]
  exact ⟨⟨named_readable members, fun name _ => under_once members hnames name⟩, rfl⟩

theorem node_text (s : String) : (Json.string s).node.text? = some s := text_of_parts s

theorem node_int64 (n : Int64) : (ofInt64 n).node.int64? = some n := by
  rw [ofInt64]
  split
  · next h =>
    have hlt : n.toUInt64.toNat < 9223372036854775808 := by
      have hle := n.toInt_lt
      rw [Int64.toNat_toUInt64_of_le h]
      change n.toInt.toNat < _
      omega
    simp only [node, Node.int64?, value_natural, if_pos hlt, Int64.toInt64_toUInt64]
  · next h => simp only [node, Node.int64?, value_negative n (Int64.not_le.mp h)]

end Countersign.Json
