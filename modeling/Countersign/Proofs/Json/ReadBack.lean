import Countersign.Proofs.Json.Scalars

/-!
# Values read back

A printed value without doubles is read as the node of that value, whatever text
stands behind it. A list is read as deep as it was printed, so that fuel for its
length is enough.
-/

set_option autoImplicit false

namespace Countersign.Json

inductive Exact : Json → Prop where
  | null : Exact .null
  | bool (b : Bool) : Exact (.bool b)
  | natural (n : UInt64) : Exact (.number (.natural n))
  | negative (n : Int64) : Exact (.number (.negative n))
  | string (s : String) : Exact (.string s)
  | array (items : List Json) (h : ∀ v ∈ items, Exact v) : Exact (.array items)
  | object (members : List (String × Json)) (h : ∀ m ∈ members, Exact m.2) :
      Exact (.object members)

mutual

/-- The node that an exact value is read as once it is printed. -/
def node : Json → Node
  | .null => .null
  | .bool b => .bool b
  | .number (.natural n) => .number (whole false n.toNat)
  | .number (.negative n) => .number (whole true n.toInt.natAbs)
  | .number (.double _) => .null
  | .string s => .string (partsOf s)
  | .array items => .array (nodes items)
  | .object members => .object (namedNodes members)

def nodes : List Json → List Node
  | [] => []
  | v :: r => v.node :: nodes r

def namedNodes : List (String × Json) → List (List StringPart × Node)
  | [] => []
  | (n, v) :: r => (partsOf n, v.node) :: namedNodes r

end

/-- However the text goes on, a value is read back from its own. -/
def ReadBack (v : Json) : Prop :=
  ∀ fuel r, v.print.length ≤ fuel → Ends r → node? fuel (v.print ++ r) = some (v.node, r)

theorem comma_ends (r : List Char) : Ends (',' :: r) := by
  rintro c ⟨⟩
  decide

theorem bracket_ends (r : List Char) : Ends (']' :: r) := by
  rintro c ⟨⟩
  decide

theorem brace_ends (r : List Char) : Ends ('}' :: r) := by
  rintro c ⟨⟩
  decide

theorem nil_ends : Ends [] := by
  rintro c ⟨⟩

theorem skip_bare (c : Char) (r : List Char) (h : isBlank c = false) :
    skipBlank (c :: r) = c :: r := by
  rw [skipBlank, List.dropWhile_cons, h]
  rfl

def Begins (cs : List Char) : Prop := ∃ c r, cs = c :: r ∧ isBlank c = false ∧ c ≠ ']'

theorem digits_begin (n : Nat) :
    ∃ c cs, Nat.toDigits 10 n = c :: cs ∧ c.isDigit = true := by
  obtain ⟨c, cs, hcs⟩ := List.exists_cons_of_ne_nil (Nat.toDigits_ne_nil (n := n) (b := 10))
  refine ⟨c, cs, hcs, ?_⟩
  exact Nat.isDigit_of_mem_toDigits (by decide) (by decide) (hcs ▸ List.mem_cons_self)

theorem ne_of_digit (c d : Char) (hc : c.isDigit = true) (hd : d.isDigit = false) : c ≠ d := by
  rintro rfl
  rw [hc] at hd
  cases hd

theorem digit_not_blank (c : Char) (h : c.isDigit = true) : isBlank c = false := by
  simp [isBlank, ne_of_digit c ' ' h (by decide), ne_of_digit c '\t' h (by decide),
    ne_of_digit c '\n' h (by decide), ne_of_digit c '\r' h (by decide)]

theorem print_begins (v : Json) (h : v.Exact) : Begins v.print := by
  cases h with
  | null => exact ⟨'n', _, rfl, by decide, by decide⟩
  | bool b =>
    cases b with
    | true => exact ⟨'t', _, rfl, by decide, by decide⟩
    | false => exact ⟨'f', _, rfl, by decide, by decide⟩
  | natural n =>
    obtain ⟨c, cs, hcs, hdigit⟩ := digits_begin n.toNat
    exact ⟨c, cs, hcs, digit_not_blank c hdigit, ne_of_digit c ']' hdigit (by decide)⟩
  | negative n => exact ⟨'-', _, rfl, by decide, by decide⟩
  | string s => exact ⟨'"', _, rfl, by decide, by decide⟩
  | array items _ => exact ⟨'[', _, rfl, by decide, by decide⟩
  | object members _ => exact ⟨'{', _, rfl, by decide, by decide⟩

theorem node_numeral (c : Char) (cs : List Char) (fuel : Nat) (h : c.isDigit = true ∨ c = '-') :
    node? (fuel + 1) (c :: cs) = (Numeral.read? (c :: cs)).map fun p => (.number p.1, p.2) := by
  have hne : ∀ d : Char, d.isDigit = false → d ≠ '-' → c ≠ d := by
    intro d hd hsign
    rcases h with h | rfl
    · exact ne_of_digit c d h hd
    · exact hsign.symm
  have hblank : isBlank c = false := by
    rcases h with h | rfl
    · exact digit_not_blank c h
    · decide
  rw [node?, skip_bare c cs hblank]
  split
  · next h => exact absurd (List.cons.inj h).1 (hne 'n' (by decide) (by decide))
  · next h => exact absurd (List.cons.inj h).1 (hne 't' (by decide) (by decide))
  · next h => exact absurd (List.cons.inj h).1 (hne 'f' (by decide) (by decide))
  · next h => exact absurd (List.cons.inj h).1 (hne '"' (by decide) (by decide))
  · next h => exact absurd (List.cons.inj h).1 (hne '[' (by decide) (by decide))
  · next h => exact absurd (List.cons.inj h).1 (hne '{' (by decide) (by decide))
  · rfl

theorem items_last (fuel : Nat) (cs r : List Char) (x : Node)
    (h : node? fuel cs = some (x, ']' :: r)) : items? (fuel + 1) cs = some ([x], r) := by
  rw [items?, h]
  rfl

theorem items_more (fuel : Nat) (cs rest r : List Char) (x : Node) (xs : List Node)
    (h : node? fuel cs = some (x, ',' :: rest)) (hrest : items? fuel rest = some (xs, r)) :
    items? (fuel + 1) cs = some (x :: xs, r) := by
  rw [items?, h]
  simp [skip_bare, isBlank, hrest]

theorem members_last (fuel : Nat) (n : String) (cs r : List Char) (x : Node)
    (h : node? fuel cs = some (x, '}' :: r)) :
    members? (fuel + 1) (quote n ++ ':' :: cs) = some ([(partsOf n, x)], r) := by
  simp [quote, members?, skip_bare, isBlank, parts_quoted, h, partsOf]

theorem members_comma (fuel : Nat) (n : String) (cs rest : List Char) (x : Node)
    (h : node? fuel cs = some (x, ',' :: rest)) : members? (fuel + 1) (quote n ++ ':' :: cs) =
      (members? fuel rest).map fun p => ((partsOf n, x) :: p.1, p.2) := by
  cases hrest : members? fuel rest <;>
    simp [quote, members?, skip_bare, isBlank, parts_quoted, h, hrest, partsOf]

theorem print_items_cons (v w : Json) (items : List Json) :
    commaed (printItems (v :: w :: items)) =
      v.print ++ ',' :: commaed (printItems (w :: items)) := rfl

theorem print_members_cons (n : String) (v : Json) (m : String × Json)
    (members : List (String × Json)) : commaed (printMembers ((n, v) :: m :: members)) =
      quote n ++ ':' :: (v.print ++ ',' :: commaed (printMembers (m :: members))) := by
  obtain ⟨n', v'⟩ := m
  rw [← List.cons_append, ← List.append_assoc]
  rfl

theorem print_member_length (n : String) (v : Json) (members : List (String × Json)) :
    v.print.length < (commaed (printMembers ((n, v) :: members))).length := by
  cases members with
  | nil =>
    rw [printMembers, printMembers, commaed, List.length_append, List.length_cons]
    omega
  | cons m members =>
    rw [print_members_cons, List.length_append, List.length_cons, List.length_append]
    omega

theorem items_read (fuel : Nat) (v : Json) (items : List Json) (r : List Char)
    (h : ∀ w ∈ v :: items, w.ReadBack)
    (hfuel : (commaed (printItems (v :: items))).length < fuel) :
    items? fuel (commaed (printItems (v :: items)) ++ ']' :: r) = some (nodes (v :: items), r) := by
  induction items generalizing v fuel with
  | nil =>
    obtain ⟨fuel, rfl⟩ := Nat.exists_eq_add_one_of_ne_zero (Nat.ne_zero_of_lt hfuel)
    have hv := h v (by simp) fuel (']' :: r) (Nat.le_of_lt_succ hfuel) (bracket_ends r)
    exact items_last _ _ _ _ hv
  | cons w items ih =>
    obtain ⟨fuel, rfl⟩ := Nat.exists_eq_add_one_of_ne_zero (Nat.ne_zero_of_lt hfuel)
    rw [print_items_cons, List.length_append, List.length_cons] at hfuel
    rw [print_items_cons, List.append_assoc, List.cons_append]
    have hv := h v (by simp) fuel (',' :: (commaed (printItems (w :: items)) ++ ']' :: r))
      (by omega) (comma_ends _)
    have hrest := ih fuel w (fun x hx => h x (by simp [hx])) (by omega)
    exact items_more _ _ _ _ _ _ hv hrest

theorem members_read (fuel : Nat) (m : String × Json) (members : List (String × Json))
    (r : List Char) (h : ∀ x ∈ m :: members, x.2.ReadBack)
    (hfuel : (commaed (printMembers (m :: members))).length < fuel) :
    members? fuel (commaed (printMembers (m :: members)) ++ '}' :: r) =
      some (namedNodes (m :: members), r) := by
  induction members generalizing m fuel with
  | nil =>
    obtain ⟨n, v⟩ := m
    obtain ⟨fuel, rfl⟩ := Nat.exists_eq_add_one_of_ne_zero (Nat.ne_zero_of_lt hfuel)
    have hshort := print_member_length n v []
    have hv := h (n, v) (by simp) fuel ('}' :: r) (by simp only; omega) (brace_ends r)
    have hlast := members_last fuel n (v.print ++ '}' :: r) r v.node hv
    rwa [← List.cons_append, ← List.append_assoc] at hlast
  | cons w members ih =>
    obtain ⟨n, v⟩ := m
    obtain ⟨fuel, rfl⟩ := Nat.exists_eq_add_one_of_ne_zero (Nat.ne_zero_of_lt hfuel)
    rw [print_members_cons, List.length_append, List.length_cons, List.length_append,
      List.length_cons] at hfuel
    have hv := h (n, v) (by simp) fuel (',' :: (commaed (printMembers (w :: members)) ++ '}' :: r))
      (by simp only; omega) (comma_ends _)
    have hrest := ih fuel w (fun x hx => h x (by simp [hx])) (by omega)
    rw [print_members_cons, List.append_assoc, List.cons_append, List.append_assoc,
      List.cons_append, members_comma fuel n _ _ v.node hv, hrest]
    rfl

theorem members_front (fuel : Nat) (m : String × Json) (members : List (String × Json))
    (rest : List Char) (h : ∀ x ∈ m :: members, x.2.ReadBack)
    (hfuel : (commaed (printMembers (m :: members))).length < fuel) :
    ∃ fuel', members? fuel (commaed (printMembers (m :: members)) ++ ',' :: rest) =
      (members? fuel' rest).map fun p => (namedNodes (m :: members) ++ p.1, p.2) := by
  induction members generalizing m fuel with
  | nil =>
    obtain ⟨n, v⟩ := m
    obtain ⟨fuel, rfl⟩ := Nat.exists_eq_add_one_of_ne_zero (Nat.ne_zero_of_lt hfuel)
    have hshort := print_member_length n v []
    have hv := h (n, v) (by simp) fuel (',' :: rest) (by simp only; omega) (comma_ends rest)
    have hcomma := members_comma fuel n (v.print ++ ',' :: rest) rest v.node hv
    rw [← List.cons_append, ← List.append_assoc] at hcomma
    exact ⟨fuel, hcomma⟩
  | cons w members ih =>
    obtain ⟨n, v⟩ := m
    obtain ⟨fuel, rfl⟩ := Nat.exists_eq_add_one_of_ne_zero (Nat.ne_zero_of_lt hfuel)
    rw [print_members_cons, List.length_append, List.length_cons, List.length_append,
      List.length_cons] at hfuel
    have hv := h (n, v) (by simp) fuel
      (',' :: (commaed (printMembers (w :: members)) ++ ',' :: rest)) (by simp only; omega)
      (comma_ends _)
    obtain ⟨fuel', hrest⟩ := ih fuel w (fun x hx => h x (by simp [hx])) (by omega)
    refine ⟨fuel', ?_⟩
    rw [print_members_cons, List.append_assoc, List.cons_append, List.append_assoc,
      List.cons_append, members_comma fuel n _ _ v.node hv, hrest, Option.map_map]
    rfl

theorem items_begin (v : Json) (items : List Json) (r : List Char) (h : v.Exact) :
    Begins (commaed (printItems (v :: items)) ++ r) := by
  obtain ⟨c, cs, hcs, hc⟩ := print_begins v h
  cases items with
  | nil =>
    refine ⟨c, cs ++ r, ?_, hc⟩
    rw [printItems, printItems, commaed, hcs, List.cons_append]
  | cons w items =>
    refine ⟨c, cs ++ ',' :: (commaed (printItems (w :: items)) ++ r), ?_, hc⟩
    rw [print_items_cons, hcs, List.cons_append, List.cons_append, List.append_assoc,
      List.cons_append]

theorem members_begin (m : String × Json) (members : List (String × Json)) (r : List Char) :
    ∃ rest, commaed (printMembers (m :: members)) ++ r = '"' :: rest := by
  obtain ⟨n, v⟩ := m
  cases members with
  | nil => exact ⟨_, rfl⟩
  | cons m members => exact ⟨_, by rw [print_members_cons]; rfl⟩

theorem array_read (items : List Json) (h : ∀ v ∈ items, v.Exact ∧ v.ReadBack) :
    (Json.array items).ReadBack := by
  intro fuel r hfuel _
  rw [print, List.cons_append, List.length_cons, List.length_append] at hfuel
  obtain ⟨fuel, rfl⟩ := Nat.exists_eq_add_one_of_ne_zero (Nat.ne_zero_of_lt hfuel)
  cases items with
  | nil => rfl
  | cons v items =>
    rw [List.length_singleton] at hfuel
    have hitems := items_read fuel v items r (fun w hw => (h w hw).2) (by omega)
    obtain ⟨c, rest, hrest, hblank, hbracket⟩ := items_begin v items (']' :: r) (h v (by simp)).1
    rw [hrest] at hitems
    rw [print, List.cons_append, List.cons_append, List.append_assoc, List.singleton_append, hrest,
      node?, skip_bare '[' _ (by decide)]
    simp only [skip_bare c rest hblank]
    split
    · next h => exact absurd (List.cons.inj h).1 hbracket
    · rw [hitems]
      rfl

theorem object_read (members : List (String × Json)) (h : ∀ m ∈ members, m.2.ReadBack) :
    (Json.object members).ReadBack := by
  intro fuel r hfuel _
  rw [print, List.cons_append, List.length_cons, List.length_append] at hfuel
  obtain ⟨fuel, rfl⟩ := Nat.exists_eq_add_one_of_ne_zero (Nat.ne_zero_of_lt hfuel)
  cases members with
  | nil => rfl
  | cons m members =>
    rw [List.length_singleton] at hfuel
    have hmembers := members_read fuel m members r h (by omega)
    obtain ⟨rest, hrest⟩ := members_begin m members ('}' :: r)
    rw [hrest] at hmembers
    rw [print, List.cons_append, List.cons_append, List.append_assoc, List.singleton_append, hrest,
      node?, skip_bare '{' _ (by decide)]
    simp only [skip_bare '"' rest (by decide)]
    split
    · next h => exact absurd (List.cons.inj h).1 (by decide)
    · rw [hmembers]
      rfl

theorem object_front (fuel : Nat) (m : String × Json) (members : List (String × Json))
    (rest r : List Char) (x : Node) (h : ∀ w ∈ m :: members, w.2.ReadBack)
    (hfuel : (commaed (printMembers (m :: members))).length < fuel)
    (hx : node? (fuel + 1) ('{' :: (commaed (printMembers (m :: members)) ++ ',' :: rest)) =
      some (x, r)) : ∃ named, x = .object (namedNodes (m :: members) ++ named) := by
  obtain ⟨fuel', hmembers⟩ := members_front fuel m members rest h hfuel
  obtain ⟨text, htext⟩ := members_begin m members (',' :: rest)
  rw [htext] at hmembers hx
  rw [node?, skip_bare '{' _ (by decide)] at hx
  simp only [skip_bare '"' text (by decide)] at hx
  split at hx
  · next h => exact absurd (List.cons.inj h).1 (by decide)
  · rw [hmembers, Option.map_map] at hx
    obtain ⟨p, _, hp⟩ := Option.map_eq_some_iff.mp hx
    exact ⟨p.1, (congrArg Prod.fst hp).symm⟩

/-- A value without doubles is read back, whatever stands behind it. -/
theorem print_read (v : Json) (h : v.Exact) : v.ReadBack := by
  induction h with
  | null =>
    intro fuel r hfuel _
    obtain ⟨fuel, rfl⟩ := Nat.exists_eq_add_one_of_ne_zero (Nat.ne_zero_of_lt hfuel)
    rfl
  | bool b =>
    intro fuel r hfuel _
    cases b with
    | true =>
      obtain ⟨fuel, rfl⟩ := Nat.exists_eq_add_one_of_ne_zero (Nat.ne_zero_of_lt hfuel)
      rfl
    | false =>
      obtain ⟨fuel, rfl⟩ := Nat.exists_eq_add_one_of_ne_zero (Nat.ne_zero_of_lt hfuel)
      rfl
  | natural n =>
    intro fuel r hfuel hr
    obtain ⟨c, cs, hcs, hdigit⟩ := digits_begin n.toNat
    rw [print, Number.print, hcs] at hfuel ⊢
    obtain ⟨fuel, rfl⟩ := Nat.exists_eq_add_one_of_ne_zero (Nat.ne_zero_of_lt hfuel)
    have hread := read_natural n.toNat r hr
    rw [hcs] at hread
    rw [List.cons_append, node_numeral c _ fuel (Or.inl hdigit), ← List.cons_append, hread]
    rfl
  | negative n =>
    intro fuel r hfuel hr
    obtain ⟨fuel, rfl⟩ := Nat.exists_eq_add_one_of_ne_zero (Nat.ne_zero_of_lt hfuel)
    have hread := read_negative n.toInt.natAbs r hr
    rw [print, Number.print, List.cons_append, node_numeral '-' _ fuel (Or.inr rfl), hread]
    rfl
  | string s =>
    intro fuel r hfuel _
    obtain ⟨fuel, rfl⟩ := Nat.exists_eq_add_one_of_ne_zero (Nat.ne_zero_of_lt hfuel)
    simp only [print, quote, List.cons_append, List.append_assoc, List.nil_append]
    rw [node?, skip_bare '"' _ (by decide)]
    simp only [parts_quoted]
    rfl
  | array items h ih => exact array_read items fun v hv => ⟨h v hv, ih v hv⟩
  | object members h ih => exact object_read members ih

theorem node_of_print (v : Json) (h : v.Exact) : Node.ofText? v.print = some v.node := by
  have hread := print_read v h (v.print.length + 1) [] (Nat.le_succ _) nil_ends
  rw [List.append_nil] at hread
  rw [Node.ofText?, hread]
  rfl

end Countersign.Json
