import Countersign.Text.Blank

/-!
# Reading separated texts

A text in which a separator stands between two parts may be divided at another
place too, but only if the separator also occurs inside a part. Where the part
behind the last separating character, or the part before the first, is free of
that character, there is one way to divide.
-/

set_option autoImplicit false

namespace Countersign.Text

/-- A part that is too long by `y` swallows the whole separator: the first character of the
separator does not recur in it, so no two separators overlap. -/
theorem swallowed_separator (c : Char) (rest y b e : List Char) (hrest : c ∉ rest)
    (h : (c :: rest) ++ b = y ++ ((c :: rest) ++ e)) :
    (y = [] ∧ b = e) ∨ ∃ x, y = (c :: rest) ++ x ∧ b = x ++ (c :: rest) ++ e := by
  rcases List.append_eq_append_iff.mp h with ⟨x, hy, hb⟩ | ⟨x, hsep, he⟩
  · exact Or.inr ⟨x, hy, by rw [List.append_assoc, hb]⟩
  · cases y with
    | nil =>
      have hx : x = c :: rest := hsep.symm
      rw [hx] at he
      exact Or.inl ⟨rfl, (List.append_cancel_left he).symm⟩
    | cons m y =>
      cases x with
      | nil =>
        rw [List.append_nil] at hsep
        exact Or.inr ⟨[], by rw [← hsep, List.append_nil], he.symm⟩
      | cons k x =>
        have hk : c = k := (List.cons.inj he).1
        have hr : rest = y ++ k :: x := (List.cons.inj hsep).2
        exact absurd (by rw [hr, hk]; simp) hrest

/-- Two parts around a separator whose first character does not recur in it: whoever divides the
text elsewhere finds a whole separator inside one of the parts. -/
theorem split_separator (c : Char) (rest a b d e : List Char) (hrest : c ∉ rest)
    (h : a ++ ((c :: rest) ++ b) = d ++ ((c :: rest) ++ e)) :
    (a = d ∧ b = e) ∨ (∃ x, a = d ++ (c :: rest) ++ x ∧ e = x ++ (c :: rest) ++ b) ∨
      ∃ x, d = a ++ (c :: rest) ++ x ∧ b = x ++ (c :: rest) ++ e := by
  rcases List.append_eq_append_iff.mp h with ⟨y, hd, hy⟩ | ⟨y, ha, hy⟩
  · rcases swallowed_separator c rest y b e hrest hy with ⟨rfl, hb⟩ | ⟨x, rfl, hb⟩
    · exact Or.inl ⟨by rw [hd, List.append_nil], hb⟩
    · exact Or.inr (Or.inr ⟨x, by rw [hd, List.append_assoc], hb⟩)
  · rcases swallowed_separator c rest y e b hrest hy with ⟨rfl, he⟩ | ⟨x, rfl, he⟩
    · exact Or.inl ⟨by rw [ha, List.append_nil], he.symm⟩
    · exact Or.inr (Or.inl ⟨x, by rw [ha, List.append_assoc], he⟩)

theorem last_separator (c : Char) (a b s t : List Char) (hs : c ∉ s) (ht : c ∉ t)
    (h : a ++ c :: s = b ++ c :: t) : a = b ∧ s = t := by
  rcases split_separator c [] a s b t (by simp) h with hab | ⟨x, _, rfl⟩ | ⟨x, _, rfl⟩
  · exact hab
  · exact absurd (by simp) ht
  · exact absurd (by simp) hs

theorem first_separator (c : Char) (a b s t : List Char) (ha : c ∉ a) (hb : c ∉ b)
    (h : a ++ c :: s = b ++ c :: t) : a = b ∧ s = t := by
  rcases split_separator c [] a s b t (by simp) h with hab | ⟨x, rfl, _⟩ | ⟨x, rfl, _⟩
  · exact hab
  · exact absurd (by simp) ha
  · exact absurd (by simp) hb

theorem split_once_none (c : Char) (cs : List Char) : splitOnce c cs = none ↔ c ∉ cs := by
  induction cs with
  | nil => simp [splitOnce]
  | cons d r ih =>
    by_cases hd : d = c
    · simp [splitOnce, hd]
    · simp [splitOnce, hd, ih, Ne.symm hd]

theorem split_once_some (c : Char) (cs a b : List Char) :
    splitOnce c cs = some (a, b) ↔ cs = a ++ c :: b ∧ c ∉ a := by
  induction cs generalizing a with
  | nil => simp [splitOnce]
  | cons d r ih =>
    by_cases hd : d = c
    · cases a with
      | nil => simp [splitOnce, hd]
      | cons e a =>
        simp only [splitOnce, hd, if_true, Option.some.injEq, Prod.mk.injEq, List.cons_append,
          List.cons.injEq, List.mem_cons, not_or]
        constructor
        · rintro ⟨h, _⟩
          cases h
        · rintro ⟨⟨hc, _⟩, hne, _⟩
          exact absurd hc hne
    · cases a with
      | nil => simp [splitOnce, hd]
      | cons e a =>
        simp only [splitOnce, hd, if_false, Option.map_eq_some_iff, Prod.exists, Prod.mk.injEq,
          List.cons.injEq, List.cons_append, List.mem_cons, not_or]
        constructor
        · rintro ⟨x, y, hxy, ⟨rfl, rfl⟩, rfl⟩
          obtain ⟨hr, hx⟩ := (ih x).mp hxy
          exact ⟨⟨rfl, hr⟩, Ne.symm hd, hx⟩
        · rintro ⟨⟨rfl, hr⟩, _, ha⟩
          exact ⟨a, b, (ih a).mpr ⟨hr, ha⟩, ⟨rfl, rfl⟩, rfl⟩

theorem not_mem_of_mem_split (c : Char) (cs p : List Char) (hp : p ∈ cs.splitOn c) : c ∉ p := by
  induction cs generalizing p with
  | nil =>
    rw [List.splitOn_nil, List.mem_singleton] at hp
    simp [hp]
  | cons d r ih =>
    rw [List.splitOn_cons_eq_if_modifyHead] at hp
    by_cases hd : d = c
    · rw [if_pos (beq_iff_eq.mpr hd), List.mem_cons] at hp
      rcases hp with rfl | hp
      · simp
      · exact ih p hp
    · rw [if_neg (fun h => hd (beq_iff_eq.mp h))] at hp
      cases hs : r.splitOn c with
      | nil => exact absurd hs (List.splitOn_ne_nil c r)
      | cons q qs =>
        rw [hs, List.modifyHead_cons, List.mem_cons] at hp
        rw [hs] at ih
        rcases hp with rfl | hp
        · simp [Ne.symm hd, ih q List.mem_cons_self]
        · exact ih p (List.mem_cons_of_mem _ hp)

end Countersign.Text
