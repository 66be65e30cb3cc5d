import Countersign.Proofs.Canonical.Order

/-!
# Spellings of a query

A query may write a character as itself or as the escapes of its bytes, and a space
also as a plus sign. All spellings of a text have the canonical form that belongs to
the text, and a canonical form in which nothing is left to decode is its own.
-/

set_option autoImplicit false

namespace Countersign.Query

/-- `e` spells the text `t`: each character stands for itself or is escaped byte by byte, and a
plus sign stands for a space. -/
inductive Spells : List Char → List Char → Prop
  | nil : Spells [] []
  | literal (c : Char) {t e : List Char} (hpercent : c ≠ '%') (hplus : c ≠ '+')
      (rest : Spells t e) : Spells (c :: t) (c :: e)
  | space {t e : List Char} (rest : Spells t e) : Spells (' ' :: t) ('+' :: e)
  | escaped (c : Char) {w t e : List Char} (hw : Percent.Escapes (Utf8.encodeChar c) w)
      (rest : Spells t e) : Spells (c :: t) (w ++ e)

theorem percent_not_mem (c : Char) (hc : c ≠ '%') : 0x25 ∉ Utf8.encodeChar c := by
  intro hmem
  rcases Utf8.mem_encode_char c 0x25 hmem with h | h
  · exact hc (Char.toNat_inj.mp h.symm)
  · exact absurd h (by decide)

theorem spaced_id (w : List Char) (hw : '+' ∉ w) :
    (w.map fun c => if c = '+' then ' ' else c) = w := by
  induction w with
  | nil => rfl
  | cons c w ih =>
    rw [List.mem_cons, not_or] at hw
    rw [List.map_cons, if_neg fun h => hw.1 h.symm, ih hw.2]

theorem bytes_of_spelling {t e : List Char} (h : Spells t e) :
    Percent.decode (Utf8.encode (e.map fun c => if c = '+' then ' ' else c)) = Utf8.encode t := by
  -- each step of the spelling puts the bytes of one character in front, and none of them can be
  -- taken for the beginning of an escape that goes on behind it
  induction h with
  | nil => rfl
  | literal c hpercent hplus _ ih =>
    rw [List.map_cons, if_neg hplus, Utf8.encode_cons,
      Percent.decode_free _ _ (percent_not_mem c hpercent), ih, Utf8.encode_cons]
  | space _ ih =>
    rw [List.map_cons, if_pos rfl, Utf8.encode_cons,
      Percent.decode_free _ _ (percent_not_mem ' ' (by decide)), ih, Utf8.encode_cons]
  | escaped c hw _ ih =>
    rw [List.map_append, spaced_id _ (Percent.escapes_no_plus hw), Utf8.encode_append,
      Percent.decode_escapes hw, ih, Utf8.encode_cons]

theorem reading_of_spelling {t e : List Char} (h : Spells t e) : reading e = t := by
  rw [reading, bytes_of_spelling h, Utf8.decode_encode]

theorem pairs_of_spelling {t e : List Char} (h : Spells t e) (hmark : e.head? ≠ some '?') :
    pairs e = listed t := by
  rw [pairs_eq_named, named, plain, if_neg hmark, reading_of_spelling h]

theorem listed_eq_nil (t : List Char) : listed t = [] ↔ ∀ part ∈ t.splitOn '&', part = [] := by
  rw [listed, List.map_eq_nil_iff, List.filter_eq_nil_iff]
  simp

/-- The canonical form of a spelling is absent if the text has no part, and otherwise the text's own
pairs in stable order; another spelling has the same. -/
theorem canonical_of_spelling (t e : String) (h : Spells t.toList e.toList)
    (hmark : e.toList.head? ≠ some '?') :
    (canonical? e = none ↔ ∀ part ∈ t.toList.splitOn '&', part = []) ∧
    ((∃ part ∈ t.toList.splitOn '&', part ≠ []) →
      ∃ ps, StablySorted (listed t.toList) ps ∧
        canonical? e = some (String.ofList (['&'].intercalate (ps.map written)))) ∧
    ∀ e' : String, Spells t.toList e'.toList → e'.toList.head? ≠ some '?' →
      canonical? e' = canonical? e := by
  have hpairs := pairs_of_spelling h hmark
  refine ⟨?_, ?_, ?_⟩
  · rw [canonical_none, hpairs, listed_eq_nil]
  · rintro ⟨part, hpart, hne⟩
    have hlisted : listed t.toList ≠ [] :=
      fun hnil => hne ((listed_eq_nil t.toList).mp hnil part hpart)
    refine ⟨sorted (listed t.toList), stably_sorted _, ?_⟩
    rw [canonical_some, ← render_eq_intercalate, hpairs]
    exact ⟨hlisted, rfl⟩
  · intro e' h' hmark'
    exact canonical_of_pairs e' e ((pairs_of_spelling h' hmark').trans hpairs.symm)

theorem canonical_of_spelling_mixed :
    canonical? "b=%2B&%3fé=+" ≠ none ∧
      (∃ ps, StablySorted (listed "b=+&?é= ".toList) ps ∧
        canonical? "b=%2B&%3fé=+" = some (String.ofList (['&'].intercalate (ps.map written)))) ∧
      canonical? "b=%2b&%3F%c3%A9=%20" = canonical? "b=%2B&%3fé=+" := by
  have hplain : Spells "b=+&?é= ".toList "b=%2B&%3fé=+".toList :=
    .literal 'b' (by decide) (by decide) <| .literal '=' (by decide) (by decide) <|
      .escaped '+' (.cons 0x2b '2' 'B' (Or.inl rfl) (Or.inr rfl) .nil) <|
      .literal '&' (by decide) (by decide) <|
      .escaped '?' (.cons 0x3f '3' 'f' (Or.inl rfl) (Or.inl rfl) .nil) <|
      .literal 'é' (by decide) (by decide) <| .literal '=' (by decide) (by decide) <|
      .space .nil
  have hescaped : Spells "b=+&?é= ".toList "b=%2b&%3F%c3%A9=%20".toList :=
    .literal 'b' (by decide) (by decide) <| .literal '=' (by decide) (by decide) <|
      .escaped '+' (.cons 0x2b '2' 'b' (Or.inl rfl) (Or.inl rfl) .nil) <|
      .literal '&' (by decide) (by decide) <|
      .escaped '?' (.cons 0x3f '3' 'F' (Or.inl rfl) (Or.inr rfl) .nil) <|
      .escaped 'é' (.cons 0xc3 'c' '3' (Or.inl rfl) (Or.inl rfl)
        (.cons 0xa9 'A' '9' (Or.inr rfl) (Or.inl rfl) .nil)) <|
      .literal '=' (by decide) (by decide) <|
      .escaped ' ' (.cons 0x20 '2' '0' (Or.inl rfl) (Or.inl rfl) .nil) .nil
  have hpart : ∃ part ∈ "b=+&?é= ".toList.splitOn '&', part ≠ [] := by decide
  obtain ⟨hnone, hsome, hother⟩ := canonical_of_spelling "b=+&?é= " "b=%2B&%3fé=+" hplain (by decide)
  refine ⟨fun h => ?_, hsome hpart, hother _ hescaped (by decide)⟩
  obtain ⟨part, hmem, hne⟩ := hpart
  exact hne (hnone.mp h part hmem)

/-! ## Canonical forms as queries -/

theorem spells_self (cs : List Char) (hpercent : '%' ∉ cs) (hplus : '+' ∉ cs) : Spells cs cs := by
  induction cs with
  | nil => exact .nil
  | cons c cs ih =>
    rw [List.mem_cons, not_or] at hpercent hplus
    exact .literal c (fun h => hpercent.1 h.symm) (fun h => hplus.1 h.symm)
      (ih hpercent.2 hplus.2)

theorem sorted_sorted (ps : List Pair) : sorted (sorted ps) = sorted ps :=
  (sorted_eq_iff _ _).mpr fun key => values_of_sorted key ps

/-- A canonical form that holds no escape, no plus sign and no leading question mark is the canonical
form of itself. -/
theorem canonical_idempotent (raw c : String) (h : canonical? raw = some c)
    (hpercent : '%' ∉ c.toList) (hplus : '+' ∉ c.toList) (hmark : c.toList.head? ≠ some '?') :
    canonical? c = some c := by
  obtain ⟨hne, hc⟩ := (canonical_some raw c).mp h
  have hspelled := spells_self c.toList hpercent hplus
  -- nothing is left to decode, so the form divides into the pairs it was written from
  have hpairs : pairs c.toList = sorted (pairs raw.toList) := by
    rw [pairs_of_spelling hspelled hmark, ← pairs_of_eq_listed, hc, String.toList_ofList,
      pairs_of_render _ (separable_sorted raw.toList)]
  rw [canonical_some, hpairs, sorted_sorted]
  exact ⟨sorted_ne_nil _ hne, hc⟩

theorem canonical_idempotent_nameless :
    canonical? "b=2&=&%C3%A9&a==x=+&=0" = some "=&=0&a==x= &b=2&é=" ∧
      canonical? "=&=0&a==x= &b=2&é=" = some "=&=0&a==x= &b=2&é=" := by
  have hcanonical : canonical? "b=2&=&%C3%A9&a==x=+&=0" = some "=&=0&a==x= &b=2&é=" :=
    canonical_of_order _ _ [([], []), ([], ['0']), (['a'], "=x= ".toList), (['b'], ['2']),
      (['é'], [])] (by decide) (by decide) (by decide)
  exact ⟨hcanonical, canonical_idempotent _ _ hcanonical (by decide) (by decide) (by decide)⟩

end Countersign.Query
