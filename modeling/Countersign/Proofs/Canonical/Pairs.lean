import Countersign.Canonical.Query
import Countersign.Proofs.Text.Separator
import Countersign.Proofs.Text.Utf8

/-!
# What a canonical query determines

The pairs of a decoded query hold no separator that could be misread, so the
rendered text gives them back. Sorting is stable: what it loses is how pairs of
different keys were mixed, and each key keeps its values in their order.
-/

set_option autoImplicit false

namespace Countersign.Query

structure Separable (p : Pair) : Prop where
  key_ampersand : '&' ∉ p.1
  key_equals : '=' ∉ p.1
  value_ampersand : '&' ∉ p.2

instance (p : Pair) : Decidable (Separable p) :=
  decidable_of_iff ('&' ∉ p.1 ∧ '=' ∉ p.1 ∧ '&' ∉ p.2)
    ⟨fun h => ⟨h.1, h.2.1, h.2.2⟩, fun h => ⟨h.1, h.2, h.3⟩⟩

def valuesOf (key : List Char) (ps : List Pair) : List (List Char) :=
  (ps.filter fun p => p.1 = key).map Prod.snd

theorem mem_of_values_of (ps qs : List Pair) (h : ∀ key, valuesOf key ps = valuesOf key qs)
    (p : Pair) (hp : p ∈ ps) : p ∈ qs := by
  have hvalue : p.2 ∈ valuesOf p.1 ps := by
    refine List.mem_map.mpr ⟨p, ?_, rfl⟩
    simp [hp]
  rw [h p.1] at hvalue
  obtain ⟨q, hq, hsnd⟩ := List.mem_map.mp hvalue
  rw [List.mem_filter, decide_eq_true_eq] at hq
  have hpq : q = p := Prod.ext hq.2 hsnd
  exact hpq ▸ hq.1

/-! ## Parts and pairs of a text -/

theorem parts_append (x y : List Char) : parts (x ++ '&' :: y) = parts x ++ parts y := by
  simp [parts, List.splitOn_append_cons_self]

theorem parts_single (x : List Char) (hx : '&' ∉ x) (hne : x ≠ []) : parts x = [x] := by
  simp [parts, List.splitOn_eq_singleton hx, hne]

theorem mem_parts (cs p : List Char) (hp : p ∈ parts cs) : '&' ∉ p :=
  Text.not_mem_of_mem_split '&' cs p (List.mem_filter.mp hp).1

theorem pair_equals (k v : List Char) (hk : '=' ∉ k) : pair (k ++ '=' :: v) = (k, v) := by
  rw [pair, (Text.split_once_some '=' _ k v).mpr ⟨rfl, hk⟩]
  rfl

theorem pair_bare (k : List Char) (hk : '=' ∉ k) : pair k = (k, []) := by
  rw [pair, (Text.split_once_none '=' k).mpr hk]
  rfl

theorem pair_separable (part : List Char) (hpart : '&' ∉ part) : Separable (pair part) := by
  cases hs : Text.splitOnce '=' part with
  | none =>
    have hequals := (Text.split_once_none '=' part).mp hs
    rw [pair_bare part hequals]
    exact ⟨hpart, hequals, by simp⟩
  | some p =>
    obtain ⟨k, v⟩ := p
    obtain ⟨rfl, hequals⟩ := (Text.split_once_some '=' part k v).mp hs
    rw [pair_equals k v hequals]
    simp only [List.mem_append, List.mem_cons, not_or] at hpart
    exact ⟨hpart.1, hequals, hpart.2.2⟩

theorem pairs_separable (raw : List Char) (p : Pair) (hp : p ∈ pairs raw) : Separable p := by
  obtain ⟨part, hpart, rfl⟩ := List.mem_map.mp hp
  exact pair_separable part (mem_parts _ part hpart)

theorem pairs_of_item (p : Pair) (hp : Separable p) : pairsOf (p.1 ++ '=' :: p.2) = [p] := by
  have hfree : '&' ∉ p.1 ++ '=' :: p.2 := by
    simp [hp.key_ampersand, hp.value_ampersand]
  rw [pairsOf, parts_single _ hfree (by simp), List.map_singleton, pair_equals _ _ hp.key_equals]

theorem pairs_of_append (x y : List Char) : pairsOf (x ++ '&' :: y) = pairsOf x ++ pairsOf y := by
  simp [pairsOf, parts_append]

theorem pairs_of_render (ps : List Pair) (h : ∀ p ∈ ps, Separable p) : pairsOf (render ps) = ps := by
  fun_induction render ps with
  | case1 => rfl
  | case2 p => exact pairs_of_item p (h p List.mem_cons_self)
  | case3 p ps hne ih =>
    rw [pairs_of_append, pairs_of_item p (h p List.mem_cons_self),
      ih (fun q hq => h q (List.mem_cons_of_mem p hq))]
    rfl

theorem render_ne_nil (p : Pair) (ps : List Pair) : render (p :: ps) ≠ [] := by
  cases ps <;> simp [render]

/-! ## Sorting by key -/

theorem key_le_trans (p q r : Pair) (hpq : keyLE p q = true) (hqr : keyLE q r = true) :
    keyLE p r = true := by
  simp only [keyLE, decide_eq_true_eq] at hpq hqr ⊢
  exact List.le_trans hpq hqr

theorem key_le_total (p q : Pair) : (keyLE p q || keyLE q p) = true := by
  simp only [keyLE, Bool.or_eq_true, decide_eq_true_eq]
  exact List.le_total _ _

theorem key_le_antisymm (p q : Pair) (hpq : keyLE p q = true) (hqp : keyLE q p = true) :
    p.1 = q.1 := by
  simp only [keyLE, decide_eq_true_eq] at hpq hqp
  exact Utf8.encode_injective _ _ (List.le_antisymm hpq hqp)

theorem sorted_perm (ps : List Pair) : (sorted ps).Perm ps := List.mergeSort_perm ps keyLE

theorem sorted_ne_nil (ps : List Pair) (h : ps ≠ []) : sorted ps ≠ [] :=
  fun hnil => h (hnil ▸ sorted_perm ps).nil_eq.symm

theorem separable_sorted (raw : List Char) : ∀ p ∈ sorted (pairs raw), Separable p :=
  fun p hp => pairs_separable raw p ((sorted_perm _).mem_iff.mp hp)

theorem sorted_pairwise (ps : List Pair) : (sorted ps).Pairwise fun p q => keyLE p q = true :=
  List.pairwise_mergeSort key_le_trans key_le_total ps

theorem filter_sorted (key : List Char) (ps : List Pair) :
    (sorted ps).filter (fun p => p.1 = key) = ps.filter fun p => p.1 = key := by
  have hordered : (ps.filter fun p => p.1 = key).Pairwise fun p q => keyLE p q = true := by
    apply List.pairwise_of_forall_mem_list
    intro p hp q hq
    simp only [List.mem_filter, decide_eq_true_eq] at hp hq
    simp only [keyLE, hp.2, hq.2, decide_eq_true_eq]
    exact List.le_refl _
  have hkept : (ps.filter fun p => p.1 = key).Sublist (sorted ps) :=
    List.sublist_mergeSort key_le_trans key_le_total hordered List.filter_sublist
  have hsub := hkept.filter fun p => p.1 = key
  simp only [List.filter_filter, Bool.and_self] at hsub
  exact (hsub.eq_of_length ((sorted_perm ps).filter _).length_eq.symm).symm

theorem values_of_sorted (key : List Char) (ps : List Pair) :
    valuesOf key (sorted ps) = valuesOf key ps := by
  rw [valuesOf, filter_sorted, valuesOf]

theorem values_of_cons (key : List Char) (p : Pair) (ps : List Pair) :
    valuesOf key (p :: ps) = if p.1 = key then p.2 :: valuesOf key ps else valuesOf key ps := by
  by_cases h : p.1 = key <;> simp [valuesOf, h]

theorem eq_nil_of_values (ps : List Pair) (h : ∀ key, valuesOf key ps = []) : ps = [] := by
  cases ps with
  | nil => rfl
  | cons p ps =>
    have hp := mem_of_values_of (p :: ps) [] h p List.mem_cons_self
    exact absurd hp List.not_mem_nil

theorem values_of_tail (key : List Char) (p : Pair) (ps qs : List Pair)
    (h : valuesOf key (p :: ps) = valuesOf key (p :: qs)) : valuesOf key ps = valuesOf key qs := by
  rw [values_of_cons, values_of_cons] at h
  by_cases hp : p.1 = key
  · rw [if_pos hp, if_pos hp] at h
    exact (List.cons.inj h).2
  · rwa [if_neg hp, if_neg hp] at h

/-- Two lists sorted by key with the same values for each key are one list. -/
theorem eq_of_pairwise (ps qs : List Pair) (hps : ps.Pairwise fun p q => keyLE p q = true)
    (hqs : qs.Pairwise fun p q => keyLE p q = true)
    (h : ∀ key, valuesOf key ps = valuesOf key qs) : ps = qs := by
  induction ps generalizing qs with
  | nil => exact (eq_nil_of_values qs fun key => (h key).symm).symm
  | cons p ps ih =>
    cases qs with
    | nil => exact eq_nil_of_values (p :: ps) h
    | cons q qs =>
      rw [List.pairwise_cons] at hps hqs
      have hp := mem_of_values_of _ _ h p List.mem_cons_self
      have hq := mem_of_values_of _ _ (fun k => (h k).symm) q List.mem_cons_self
      have hkey : p.1 = q.1 := by
        rcases List.mem_cons.mp hp with rfl | hp
        · rfl
        rcases List.mem_cons.mp hq with rfl | hq
        · rfl
        exact key_le_antisymm p q (hps.1 q hq) (hqs.1 p hp)
      have hhead := h p.1
      rw [values_of_cons, values_of_cons, if_pos rfl, if_pos hkey.symm, List.cons.injEq] at hhead
      have hpq : p = q := Prod.ext hkey hhead.1
      subst hpq
      congr 1
      exact ih qs hps.2 hqs.2 fun key => values_of_tail key p ps qs (h key)

theorem sorted_eq_iff (ps qs : List Pair) :
    sorted ps = sorted qs ↔ ∀ key, valuesOf key ps = valuesOf key qs := by
  constructor
  · intro h key
    rw [← values_of_sorted key ps, h, values_of_sorted]
  · intro h
    apply eq_of_pairwise _ _ (sorted_pairwise ps) (sorted_pairwise qs)
    intro key
    rw [values_of_sorted, values_of_sorted, h key]

/-! ## The canonical form -/

theorem canonical_chars_sorted (raw : List Char) : canonicalChars? raw =
    if sorted (pairs raw) = [] then none else some (render (sorted (pairs raw))) := by
  cases hp : pairs raw with
  | nil => simp [canonicalChars?, hp, sorted]
  | cons p ps =>
    have hne := sorted_ne_nil (p :: ps) (List.cons_ne_nil p ps)
    simp [canonicalChars?, hp, hne]

theorem canonical_none (raw : String) : canonical? raw = none ↔ pairs raw.toList = [] := by
  rw [canonical?, canonicalChars?]
  cases pairs raw.toList <;> simp

theorem canonical_some (raw c : String) :
    canonical? raw = some c ↔
      pairs raw.toList ≠ [] ∧ c = String.ofList (render (sorted (pairs raw.toList))) := by
  rw [canonical?, canonicalChars?]
  cases pairs raw.toList <;> simp [eq_comm]

/-- A canonical form reads back as the sorted pairs, and an absent one as no pair. -/
theorem pairs_of_canonical (raw : List Char) :
    pairsOf ((canonicalChars? raw).getD []) = sorted (pairs raw) := by
  rw [canonical_chars_sorted]
  by_cases h : sorted (pairs raw) = []
  · rw [if_pos h, h]
    rfl
  · rw [if_neg h]
    exact pairs_of_render _ (separable_sorted raw)

theorem canonical_chars_eq (q r : List Char) :
    canonicalChars? q = canonicalChars? r ↔ sorted (pairs q) = sorted (pairs r) := by
  constructor
  · intro h
    rw [← pairs_of_canonical, h, pairs_of_canonical]
  · intro h
    rw [canonical_chars_sorted, canonical_chars_sorted, h]

theorem canonical_eq_iff (q r : String) :
    canonical? q = canonical? r ↔
      ∀ key, valuesOf key (pairs q.toList) = valuesOf key (pairs r.toList) := by
  rw [← sorted_eq_iff, ← canonical_chars_eq, canonical?, canonical?]
  constructor
  · intro h
    exact Option.map_injective (fun _ _ => String.ofList_inj.mp) h
  · intro h
    rw [h]

theorem canonical_of_pairs (q r : String) (h : pairs q.toList = pairs r.toList) :
    canonical? q = canonical? r := by
  rw [canonical?, canonical?, canonicalChars?, canonicalChars?, h]

theorem canonical_ne_empty (raw : String) : canonical? raw ≠ some "" := by
  intro h
  rw [canonical?, canonical_chars_sorted] at h
  cases hs : sorted (pairs raw.toList) with
  | nil => simp [hs] at h
  | cons p ps =>
    rw [hs, if_neg (List.cons_ne_nil p ps), Option.map_some, Option.some.injEq] at h
    exact render_ne_nil p ps (String.ofList_inj.mp h)

end Countersign.Query
