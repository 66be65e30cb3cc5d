import Countersign.Proofs.Canonical.Pairs
import Countersign.Proofs.Encoding.Percent

/-!
# Canonical queries and the parameters of a form

A form is read in the other order: the raw query is divided first and its keys
and values are decoded one by one. The two readings agree exactly when nothing
that decodes to a separator stands where it would divide the query again.
-/

set_option autoImplicit false

namespace Countersign.Query

def reading (cs : List Char) : List Char :=
  Utf8.decodeLossy (Percent.decode (Utf8.encode (cs.map fun c => if c = '+' then ' ' else c)))

def formPair (part : List Char) : Pair := (reading (pair part).1, reading (pair part).2)

/-- The parameters of a raw query: divided first, then decoded. -/
def formPairs (cs : List Char) : List Pair := (parts cs).map formPair

def formValues (key : List Char) (cs : List Char) : List (List Char) := valuesOf key (formPairs cs)

theorem decoded_eq_reading (raw : List Char) : decoded raw = reading (dropMark raw) := rfl

theorem reading_separator (c : Char) (b : UInt8) (hc : c ≠ '+') (hb : Utf8.encodeChar c = [b])
    (hchar : Char.ofNat b.toNat = c) (hlow : b < 0x80) (hpercent : b ≠ 0x25)
    (hhex : Percent.hexValue? b = none) (x y : List Char) :
    reading (x ++ c :: y) = reading x ++ c :: reading y := by
  simp only [reading, List.map_append, List.map_cons, if_neg hc, Utf8.encode_append,
    Utf8.encode_cons, hb, List.singleton_append]
  rw [Percent.decode_separator b hpercent hhex, Utf8.decode_ascii b hlow, hchar]

theorem reading_ampersand (x y : List Char) :
    reading (x ++ '&' :: y) = reading x ++ '&' :: reading y :=
  reading_separator '&' 0x26 (by decide) (by decide) (by decide) (by decide) (by decide)
    (by decide) x y

theorem reading_equals (x y : List Char) :
    reading (x ++ '=' :: y) = reading x ++ '=' :: reading y :=
  reading_separator '=' 0x3d (by decide) (by decide) (by decide) (by decide) (by decide)
    (by decide) x y

theorem reading_eq_nil (x : List Char) : reading x = [] ↔ x = [] := by
  have hencode : ∀ c : Char, Utf8.encodeChar c ≠ [] := by
    intro c
    simp [Utf8.encodeChar]
  rw [reading, Utf8.decode_eq_nil, Percent.decode_eq_nil]
  cases x with
  | nil => simp
  | cons c x => simp [hencode]

theorem pairs_of_reading_part (part : List Char) (hne : part ≠ []) (h : Separable (formPair part)) :
    pairsOf (reading part) = [formPair part] := by
  cases hs : Text.splitOnce '=' part with
  | none =>
    have hbare := pair_bare part ((Text.split_once_none '=' part).mp hs)
    have hform : formPair part = (reading part, []) := by
      rw [formPair, hbare]
      rfl
    rw [hform] at h ⊢
    have hread : reading part ≠ [] := fun hnil => hne ((reading_eq_nil part).mp hnil)
    rw [pairsOf, parts_single _ h.key_ampersand hread, List.map_singleton,
      pair_bare _ h.key_equals]
  | some p =>
    obtain ⟨k, v⟩ := p
    obtain ⟨rfl, hequals⟩ := (Text.split_once_some '=' part k v).mp hs
    have hform : formPair (k ++ '=' :: v) = (reading k, reading v) := by
      rw [formPair, pair_equals k v hequals]
    rw [hform] at h ⊢
    rw [reading_equals]
    exact pairs_of_item (reading k, reading v) h

theorem pairs_of_reading (ls : List (List Char))
    (h : ∀ part ∈ ls, part ≠ [] → Separable (formPair part)) :
    pairsOf (reading (['&'].intercalate ls)) =
      (ls.filter fun part => part ≠ []).map formPair := by
  have hsingle : ∀ part ∈ ls, pairsOf (reading part) =
      ([part].filter fun part => part ≠ []).map formPair := by
    intro part hpart
    by_cases hne : part = []
    · subst hne
      rfl
    · simpa [hne] using pairs_of_reading_part part hne (h part hpart hne)
  induction ls with
  | nil => rfl
  | cons part ls ih =>
    cases ls with
    | nil =>
      rw [List.intercalate_singleton]
      exact hsingle part List.mem_cons_self
    | cons next ls =>
      have hrest := ih (fun q hq => h q (List.mem_cons_of_mem part hq))
        (fun q hq => hsingle q (List.mem_cons_of_mem part hq))
      rw [List.intercalate_cons_cons, List.append_assoc, List.singleton_append, reading_ampersand,
        pairs_of_append, hrest, hsingle part List.mem_cons_self, ← List.map_append,
        ← List.filter_append]
      rfl

/-- The query as it is signed and the query as a form are one list of pairs exactly when the form
holds no separator inside a key or value. -/
theorem pairs_eq_form (raw : List Char) :
    pairs raw = formPairs (dropMark raw) ↔ ∀ p ∈ formPairs (dropMark raw), Separable p := by
  constructor
  · intro h p hp
    exact pairs_separable raw p (h ▸ hp)
  · intro h
    rw [pairs, decoded_eq_reading]
    have hform : ∀ part ∈ (dropMark raw).splitOn '&', part ≠ [] → Separable (formPair part) := by
      intro part hpart hne
      exact h _ (List.mem_map_of_mem (List.mem_filter.mpr ⟨hpart, by simpa using hne⟩))
    have hpairs := pairs_of_reading _ hform
    rwa [List.intercalate_splitOn] at hpairs

/-- Beside a query that is read alike in either order, a query has the same values for every
parameter exactly when it has the same canonical form and is read alike too. -/
theorem same_values_iff_canonical (q r : String)
    (hr : ∀ p ∈ formPairs (dropMark r.toList), Separable p) :
    (∀ key, formValues key (dropMark q.toList) = formValues key (dropMark r.toList)) ↔
      canonical? q = canonical? r ∧ ∀ p ∈ formPairs (dropMark q.toList), Separable p := by
  rw [canonical_eq_iff, (pairs_eq_form r.toList).mpr hr]
  constructor
  · intro h
    have hq : ∀ p ∈ formPairs (dropMark q.toList), Separable p :=
      fun p hp => hr p (mem_of_values_of _ _ h p hp)
    rw [(pairs_eq_form q.toList).mpr hq]
    exact ⟨h, hq⟩
  · rintro ⟨h, hq⟩
    rwa [(pairs_eq_form q.toList).mpr hq] at h

theorem same_values_iff_canonical_sample :
    (∀ p ∈ formPairs (dropMark "a=%201&b=2&a=3".toList), Separable p) ∧
      ∀ key, formValues key (dropMark "?a=+1&b=2&&a=3".toList) =
        formValues key (dropMark "a=%201&b=2&a=3".toList) := by
  have hr : ∀ p ∈ formPairs (dropMark "a=%201&b=2&a=3".toList), Separable p := by decide
  have hcanonical : canonical? "?a=+1&b=2&&a=3" = canonical? "a=%201&b=2&a=3" :=
    canonical_of_pairs _ _ (by decide)
  exact ⟨hr, (same_values_iff_canonical _ _ hr).mpr ⟨hcanonical, by decide⟩⟩

/-- An escaped ampersand is signed as one that divides, and a leading question mark not at all: other
parameters under the same canonical form. -/
theorem regrouped_canonical :
    canonical? "a=1%26b=2" = canonical? "a=1&b=2" ∧
      formValues "b".toList "a=1%26b=2".toList ≠ formValues "b".toList "a=1&b=2".toList ∧
      canonical? "?a=1" = canonical? "a=1" ∧
      formValues "a".toList "?a=1".toList ≠ formValues "a".toList "a=1".toList := by
  refine ⟨canonical_of_pairs _ _ ?_, ?_, canonical_of_pairs _ _ ?_, ?_⟩ <;> decide

end Countersign.Query
