import Countersign.Proofs.Canonical.Parameters

/-!
# The order of a canonical query

A canonical query lists the pairs that the raw query names, sorted by the bytes of
their keys, and divides back into that list. Nothing is lost or written twice, and
the values of one key stand in the order in which the query names them.
-/

set_option autoImplicit false

namespace Countersign.Query

def divided (part : List Char) : Pair :=
  (part.takeWhile (· ≠ '='), (part.dropWhile (· ≠ '=')).drop 1)

/-- The pairs of a text: its parts between ampersands without the empty ones, each divided. -/
def listed (text : List Char) : List Pair :=
  ((text.splitOn '&').filter fun part => part ≠ []).map divided

def plain (raw : List Char) : List Char :=
  reading (if raw.head? = some '?' then raw.tail else raw)

def named (raw : List Char) : List Pair := listed (plain raw)

/-- `qs` holds the pairs of `ps` in the order of their keys and, for each key, in the order of
`ps`. -/
structure StablySorted (ps qs : List Pair) : Prop where
  perm : qs.Perm ps
  ordered : qs.Pairwise fun p q => Utf8.encode p.1 ≤ Utf8.encode q.1
  kept : ∀ key, valuesOf key qs = valuesOf key ps

/-! ## Dividing a part -/

theorem pair_eq_divided (part : List Char) : pair part = divided part := by
  induction part with
  | nil => rfl
  | cons c part ih =>
    by_cases hc : c = '='
    · simp [pair, divided, Text.splitOnce, hc]
    · have hkey : (c :: part).takeWhile (· ≠ '=') = c :: part.takeWhile (· ≠ '=') := by simp [hc]
      have hvalue : (c :: part).dropWhile (· ≠ '=') = part.dropWhile (· ≠ '=') := by simp [hc]
      rw [divided, hkey, hvalue, pair, Text.splitOnce, if_neg hc]
      rw [pair, divided] at ih
      cases hs : Text.splitOnce '=' part with
      | none =>
        rw [hs, Option.getD_none, Prod.mk.injEq] at ih
        rw [Option.map_none, Option.getD_none, ← ih.1, ← ih.2]
      | some p =>
        rw [hs, Option.getD_some] at ih
        rw [Option.map_some, Option.getD_some, ih]

theorem pairs_of_eq_listed (text : List Char) : pairsOf text = listed text := by
  have hdivided : pair = divided := funext pair_eq_divided
  rw [pairsOf, parts, listed, hdivided]

theorem decoded_eq_plain (raw : List Char) : decoded raw = plain raw := by
  have hmark : dropMark raw = if raw.head? = some '?' then raw.tail else raw := by
    unfold dropMark
    split
    · rfl
    · next hmark =>
      cases raw with
      | nil => rfl
      | cons c r =>
        have hc : c ≠ '?' := fun h => hmark r (h ▸ rfl)
        simp [hc]
  rw [decoded_eq_reading, hmark, plain]

theorem pairs_eq_named (raw : List Char) : pairs raw = named raw := by
  rw [pairs, decoded_eq_plain, pairs_of_eq_listed, named]

/-! ## Sorting and writing -/

theorem stably_sorted (ps : List Pair) : StablySorted ps (sorted ps) where
  perm := sorted_perm ps
  ordered := (sorted_pairwise ps).imp fun h => of_decide_eq_true h
  kept key := values_of_sorted key ps

theorem StablySorted.eq_sorted {ps qs : List Pair} (h : StablySorted ps qs) : qs = sorted ps := by
  apply eq_of_pairwise _ _ (h.ordered.imp fun h => decide_eq_true h) (sorted_pairwise ps)
  intro key
  rw [h.kept key, values_of_sorted]

theorem values_of_absent (key : List Char) (ps : List Pair) (h : ∀ p ∈ ps, p.1 ≠ key) :
    valuesOf key ps = [] := by
  induction ps with
  | nil => rfl
  | cons p ps ih =>
    rw [values_of_cons, if_neg (h p List.mem_cons_self),
      ih fun q hq => h q (List.mem_cons_of_mem p hq)]

theorem stably_sorted_iff (ps qs : List Pair) :
    StablySorted ps qs ↔ qs.Perm ps ∧ qs.Pairwise (fun p q => keyLE p q = true) ∧
      (ps.all fun p => valuesOf p.1 qs == valuesOf p.1 ps) = true := by
  constructor
  · intro h
    refine ⟨h.perm, h.ordered.imp fun h => decide_eq_true h, ?_⟩
    simp [h.kept]
  · rintro ⟨hperm, hordered, hkept⟩
    refine ⟨hperm, hordered.imp fun h => of_decide_eq_true h, ?_⟩
    intro key
    by_cases hkey : ∃ p ∈ ps, p.1 = key
    · obtain ⟨p, hp, rfl⟩ := hkey
      exact beq_iff_eq.mp (List.all_eq_true.mp hkept p hp)
    · -- a key that the pairs do not name has no values on either side
      have hps : ∀ p ∈ ps, p.1 ≠ key := fun p hp h => hkey ⟨p, hp, h⟩
      rw [values_of_absent key ps hps,
        values_of_absent key qs fun q hq => hps q (hperm.mem_iff.mp hq)]

instance (ps qs : List Pair) : Decidable (StablySorted ps qs) :=
  decidable_of_iff _ (stably_sorted_iff ps qs).symm

def written (p : Pair) : List Char := p.1 ++ '=' :: p.2

theorem render_eq_intercalate (ps : List Pair) : render ps = ['&'].intercalate (ps.map written) := by
  fun_induction render ps with
  | case1 => rfl
  | case2 p => rw [List.map_singleton, List.intercalate_singleton, written]
  | case3 p ps hne ih =>
    cases ps with
    | nil => exact absurd rfl hne
    | cons q ps =>
      rw [ih, List.map_cons, List.map_cons, List.map_cons, List.intercalate_cons_cons]
      simp [written]

theorem split_render (ps : List Pair) (hne : ps ≠ []) (h : ∀ p ∈ ps, Separable p) :
    (render ps).splitOn '&' = ps.map written := by
  have hfree : ∀ part ∈ ps.map written, '&' ∉ part := by
    intro part hpart
    obtain ⟨p, hp, rfl⟩ := List.mem_map.mp hpart
    simp [written, (h p hp).key_ampersand, (h p hp).value_ampersand]
  rw [render_eq_intercalate, List.splitOn_intercalate '&' hfree (by simpa using hne)]

theorem divided_written (ps : List Pair) (h : ∀ p ∈ ps, Separable p) :
    (ps.map written).map divided = ps := by
  induction ps with
  | nil => rfl
  | cons p ps ih =>
    have hp := h p List.mem_cons_self
    rw [List.map_cons, List.map_cons, ih fun q hq => h q (List.mem_cons_of_mem p hq), written,
      ← pair_eq_divided, pair_equals p.1 p.2 hp.key_equals]

theorem canonical_of_order (raw c : String) (ps : List Pair) (hne : ps ≠ [])
    (hps : StablySorted (named raw.toList) ps)
    (hc : c.toList = ['&'].intercalate (ps.map written)) : canonical? raw = some c := by
  have hsorted := hps.eq_sorted
  rw [← pairs_eq_named] at hps hsorted
  rw [canonical_some, ← hsorted, render_eq_intercalate, ← hc, String.ofList_toList]
  refine ⟨fun hnil => hne ?_, rfl⟩
  rw [hnil] at hps
  exact hps.perm.eq_nil

/-- The canonical form of a raw query, divided again, is the one stable order of the pairs that the
query names. -/
theorem canonical_stably_sorted (raw : String) :
    (canonical? raw = none ↔ named raw.toList = []) ∧
      ∀ c, canonical? raw = some c →
        (∀ part ∈ c.toList.splitOn '&', '=' ∈ part) ∧
          StablySorted (named raw.toList) ((c.toList.splitOn '&').map divided) := by
  rw [← pairs_eq_named]
  refine ⟨canonical_none raw, fun c hc => ?_⟩
  obtain ⟨hne, rfl⟩ := (canonical_some raw c).mp hc
  have hseparable := separable_sorted raw.toList
  rw [String.toList_ofList, split_render _ (sorted_ne_nil _ hne) hseparable]
  constructor
  · intro part hpart
    obtain ⟨p, _, rfl⟩ := List.mem_map.mp hpart
    simp [written]
  · rw [divided_written _ hseparable]
    exact stably_sorted (pairs raw.toList)

theorem canonical_stably_sorted_sample :
    canonical? "?b=%31&a==+&&%C3%A9&b=0" = some "a== &b=1&b=0&é=" ∧
      StablySorted (named "?b=%31&a==+&&%C3%A9&b=0".toList)
        [("a".toList, "= ".toList), ("b".toList, "1".toList), ("b".toList, "0".toList),
          ("é".toList, [])] := by
  have hcanonical : canonical? "?b=%31&a==+&&%C3%A9&b=0" = some "a== &b=1&b=0&é=" :=
    canonical_of_order _ _ [(['a'], ['=', ' ']), (['b'], ['1']), (['b'], ['0']), (['é'], [])]
      (by decide) (by decide) (by decide)
  exact ⟨hcanonical, ((canonical_stably_sorted _).2 _ hcanonical).2⟩

end Countersign.Query
