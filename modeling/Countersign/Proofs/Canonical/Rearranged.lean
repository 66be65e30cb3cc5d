import Countersign.Proofs.Canonical.Order

/-!
# Queries with one canonical form

Two raw queries have one canonical form exactly when every key has the same values in
the same order. That is the case exactly when the pairs of one become the pairs of the
other by exchanges of neighbours with different keys, so no other change goes unseen.
-/

set_option autoImplicit false

namespace Countersign.Query

/-- The same pairs in an order that no two pairs of one key have changed. -/
inductive Rearranged : List Pair → List Pair → Prop
  | nil : Rearranged [] []
  | cons (p : Pair) {ps qs : List Pair} (rest : Rearranged ps qs) :
      Rearranged (p :: ps) (p :: qs)
  | swap (p q : Pair) (ps : List Pair) (hkey : p.1 ≠ q.1) :
      Rearranged (p :: q :: ps) (q :: p :: ps)
  | trans {ps qs rs : List Pair} (first : Rearranged ps qs) (second : Rearranged qs rs) :
      Rearranged ps rs

theorem rearranged_refl (ps : List Pair) : Rearranged ps ps := by
  induction ps with
  | nil => exact .nil
  | cons p ps ih => exact .cons p ih

theorem values_of_rearranged {ps qs : List Pair} (h : Rearranged ps qs) (key : List Char) :
    valuesOf key ps = valuesOf key qs := by
  induction h with
  | nil => rfl
  | cons p _ ih => rw [values_of_cons, values_of_cons, ih]
  | swap p q ps hkey =>
    simp only [values_of_cons]
    by_cases hp : p.1 = key
    · have hq : q.1 ≠ key := fun hq => hkey (hp.trans hq.symm)
      simp [hp, hq]
    · simp [hp]
  | trans _ _ ihfirst ihsecond => exact ihfirst.trans ihsecond

theorem move_behind (p : Pair) (x y : List Pair) (hx : ∀ q ∈ x, p.1 ≠ q.1) :
    Rearranged (p :: (x ++ y)) (x ++ p :: y) := by
  induction x with
  | nil => exact rearranged_refl _
  | cons q x ih =>
    have hswap := Rearranged.swap p q (x ++ y) (hx q List.mem_cons_self)
    have hrest := ih fun r hr => hx r (List.mem_cons_of_mem q hr)
    exact hswap.trans (hrest.cons q)

theorem first_of_key (p : Pair) (vs : List (List Char)) (qs : List Pair)
    (h : valuesOf p.1 qs = p.2 :: vs) :
    ∃ x y, qs = x ++ p :: y ∧ ∀ q ∈ x, p.1 ≠ q.1 := by
  induction qs with
  | nil => cases h
  | cons q qs ih =>
    rw [values_of_cons] at h
    by_cases hq : q.1 = p.1
    · rw [if_pos hq, List.cons.injEq] at h
      have hqp : q = p := Prod.ext hq h.1
      exact ⟨[], qs, by rw [hqp, List.nil_append], by simp⟩
    · rw [if_neg hq] at h
      obtain ⟨x, y, rfl, hx⟩ := ih h
      refine ⟨q :: x, y, rfl, ?_⟩
      intro r hr
      rcases List.mem_cons.mp hr with rfl | hr
      · exact fun hp => hq hp.symm
      · exact hx r hr

theorem rearranged_of_values (ps qs : List Pair)
    (h : ∀ key, valuesOf key ps = valuesOf key qs) : Rearranged ps qs := by
  induction ps generalizing qs with
  | nil =>
    obtain rfl := eq_nil_of_values qs fun key => (h key).symm
    exact .nil
  | cons p ps ih =>
    have hfirst := h p.1
    rw [values_of_cons, if_pos rfl] at hfirst
    obtain ⟨x, y, rfl, hx⟩ := first_of_key p _ qs hfirst.symm
    have hmove := move_behind p x y hx
    -- what is left of the second list once its first pair of this key is taken out
    have hrest : ∀ key, valuesOf key ps = valuesOf key (x ++ y) := by
      intro key
      apply values_of_tail key p
      rw [h key, values_of_rearranged hmove key]
    exact ((ih (x ++ y) hrest).cons p).trans hmove

theorem rearranged_iff (ps qs : List Pair) :
    Rearranged ps qs ↔ ∀ key, valuesOf key ps = valuesOf key qs :=
  ⟨values_of_rearranged, rearranged_of_values ps qs⟩

/-! ## Changes of one query -/

theorem values_of_append (key : List Char) (ps qs : List Pair) :
    valuesOf key (ps ++ qs) = valuesOf key ps ++ valuesOf key qs := by
  simp [valuesOf]

theorem listed_empty_part (s t : List Char) (x y : List (List Char))
    (hs : s.splitOn '&' = x ++ y) (ht : t.splitOn '&' = x ++ [] :: y) : listed s = listed t := by
  rw [listed, listed, hs, ht]
  simp

theorem exchanged_values (key v w : List Char) (x y z : List Pair) (hvw : v ≠ w) :
    valuesOf key (x ++ (key, v) :: (y ++ (key, w) :: z)) ≠
      valuesOf key (x ++ (key, w) :: (y ++ (key, v) :: z)) := by
  intro h
  rw [values_of_append, values_of_append, values_of_cons, values_of_cons, if_pos rfl, if_pos rfl]
    at h
  exact hvw (List.cons.inj (List.append_cancel_left h)).1

theorem changed_values (p q : Pair) (x y : List Pair) (hpq : p ≠ q) :
    valuesOf p.1 (x ++ p :: y) ≠ valuesOf p.1 (x ++ q :: y) := by
  intro h
  rw [values_of_append, values_of_append, values_of_cons, values_of_cons, if_pos rfl] at h
  have hrest := List.append_cancel_left h
  by_cases hq : q.1 = p.1
  · rw [if_pos hq] at hrest
    exact hpq (Prod.ext hq.symm (List.cons.inj hrest).1)
  · rw [if_neg hq] at hrest
    exact List.cons_ne_self _ _ hrest

/-- One canonical form means the same values for each key in the same order. So pairs of different
keys may change places and empty parts may be added, while two different values of a key may not
change places and no key or value may be another. -/
theorem one_canonical_iff (a b : String) :
    (canonical? a = canonical? b ↔
      ∀ key, valuesOf key (named a.toList) = valuesOf key (named b.toList)) ∧
    (canonical? a = canonical? b ↔ Rearranged (named a.toList) (named b.toList)) ∧
    (∀ x y, (plain a.toList).splitOn '&' = x ++ y → (plain b.toList).splitOn '&' = x ++ [] :: y →
      canonical? a = canonical? b) ∧
    (∀ key v w x y z, v ≠ w → named a.toList = x ++ (key, v) :: (y ++ (key, w) :: z) →
      named b.toList = x ++ (key, w) :: (y ++ (key, v) :: z) → canonical? a ≠ canonical? b) ∧
    ∀ p q x y, p ≠ q → named a.toList = x ++ p :: y → named b.toList = x ++ q :: y →
      canonical? a ≠ canonical? b := by
  have hvalues : canonical? a = canonical? b ↔
      ∀ key, valuesOf key (named a.toList) = valuesOf key (named b.toList) := by
    rw [canonical_eq_iff, pairs_eq_named, pairs_eq_named]
  refine ⟨hvalues, ?_, ?_, ?_, ?_⟩
  · rw [hvalues, rearranged_iff]
  · intro x y ha hb
    apply hvalues.mpr
    intro key
    rw [named, named, listed_empty_part _ _ x y ha hb]
  · intro key v w x y z hvw ha hb h
    have hkey := hvalues.mp h key
    rw [ha, hb] at hkey
    exact exchanged_values key v w x y z hvw hkey
  · intro p q x y hpq ha hb h
    have hkey := hvalues.mp h p.1
    rw [ha, hb] at hkey
    exact changed_values p q x y hpq hkey

theorem one_canonical_iff_samples :
    canonical? "t=2&%61=1" = canonical? "t=2&%26a=1" ∧
      canonical? "t=1&a&t=2" ≠ canonical? "t=2&a&t=1" ∧
      canonical? "a=1" ≠ canonical? "%20a=1" := by
  have hexchange := (one_canonical_iff "t=1&a&t=2" "t=2&a&t=1").2.2.2.1
  have hchange := (one_canonical_iff "a=1" "%20a=1").2.2.2.2
  refine ⟨?_, ?_, ?_⟩
  · exact (one_canonical_iff _ _).2.2.1 ["t=2".toList] ["a=1".toList] (by decide) (by decide)
  · exact hexchange ['t'] ['1'] ['2'] [] [(['a'], [])] [] (by decide) (by decide) (by decide)
  · exact hchange (['a'], ['1']) ([' ', 'a'], ['1']) [] [] (by decide) (by decide) (by decide)

end Countersign.Query
