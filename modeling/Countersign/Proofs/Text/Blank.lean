import Countersign.Text.Blank

/-!
# Trimming

Trimming drops white space at the two ends and nothing else: what is left stands
in the text between two runs of white space, and a text without white space is
left as it is, also when it stands between such runs.
-/

set_option autoImplicit false

namespace Countersign.Text

theorem drop_blank_eq (p : Char → Bool) (cs : List Char) (h : ∀ c ∈ cs, p c = false) :
    cs.dropWhile p = cs := by
  cases cs with
  | nil => rfl
  | cons c cs => simp [h c (by simp)]

theorem trim_eq (cs : List Char) (h : ∀ c ∈ cs, isBlank c = false) : trim cs = cs := by
  have hr : ∀ c ∈ cs.reverse, isBlank c = false := fun c hc => h c (List.mem_reverse.mp hc)
  rw [trim, trimBy, drop_blank_eq isBlank cs h, trimEnd, drop_blank_eq isBlank _ hr,
    List.reverse_reverse]

theorem blank_or_mem_trim (cs : List Char) (c : Char) (hc : c ∈ cs) :
    isBlank c = true ∨ c ∈ trim cs := by
  have split : ∀ ds : List Char, c ∈ ds → isBlank c = true ∨ c ∈ ds.dropWhile isBlank := by
    intro ds hd
    rw [← List.takeWhile_append_dropWhile (p := isBlank) (l := ds)] at hd
    rcases List.mem_append.mp hd with h | h
    · exact Or.inl (List.all_eq_true.mp List.all_takeWhile c h)
    · exact Or.inr h
  rcases split cs hc with h | h
  · exact Or.inl h
  rcases split _ (List.mem_reverse.mpr h) with h | h
  · exact Or.inl h
  · exact Or.inr (List.mem_reverse.mpr h)

/-! ## A text between two runs of what is dropped -/

def IsBare (p : Char → Bool) (cs : List Char) : Prop :=
  (∀ c, cs.head? = some c → p c = false) ∧ ∀ c, cs.getLast? = some c → p c = false

theorem bare_of_all (p : Char → Bool) (cs : List Char) (h : ∀ c ∈ cs, p c = false) :
    IsBare p cs :=
  ⟨fun c hc => h c (List.mem_of_head? hc), fun c hc => h c (List.mem_of_getLast? hc)⟩

theorem drop_bare (p : Char → Bool) (front cs : List Char) (hfront : ∀ c ∈ front, p c = true)
    (hcs : ∀ c, cs.head? = some c → p c = false) : (front ++ cs).dropWhile p = cs := by
  rw [List.dropWhile_append_of_pos hfront]
  cases cs with
  | nil => rfl
  | cons c cs => rw [List.dropWhile_cons_of_neg (by simp [hcs c rfl])]

theorem head_drop (p : Char → Bool) (cs : List Char) (c : Char)
    (h : (cs.dropWhile p).head? = some c) : p c = false := by
  have hhead := List.head?_dropWhile_not p cs
  rw [h] at hhead
  exact hhead

theorem trim_by_bare (p : Char → Bool) (before cs after : List Char)
    (hbefore : ∀ c ∈ before, p c = true) (hafter : ∀ c ∈ after, p c = true) (hcs : IsBare p cs) :
    trimBy p (before ++ cs ++ after) = cs := by
  have hreverse : ∀ c, cs.reverse.head? = some c → p c = false := by
    rw [List.head?_reverse]
    exact hcs.2
  have hdrop : (before ++ cs ++ after).dropWhile p = cs ++ after ∨
      cs = [] ∧ (before ++ cs ++ after).dropWhile p = [] := by
    cases cs with
    | nil =>
      have hrest : after.dropWhile p = [] := by
        simpa using drop_bare p after [] hafter (by simp)
      exact Or.inr ⟨rfl, by rw [List.append_nil, List.dropWhile_append_of_pos hbefore, hrest]⟩
    | cons d r =>
      rw [List.append_assoc]
      exact Or.inl (drop_bare p before (d :: r ++ after) hbefore hcs.1)
  rcases hdrop with hdrop | ⟨rfl, hdrop⟩
  · rw [trimBy, hdrop, trimEnd, List.reverse_append,
      drop_bare p _ _ (fun c hc => hafter c (List.mem_reverse.mp hc)) hreverse,
      List.reverse_reverse]
  · rw [trimBy, hdrop]
    rfl

theorem trim_by_chars (p : Char → Bool) (cs : List Char) :
    ∃ before after, cs = before ++ trimBy p cs ++ after ∧ (∀ c ∈ before, p c = true) ∧
      (∀ c ∈ after, p c = true) ∧ IsBare p (trimBy p cs) := by
  have hend : ∀ ds, ds = trimEnd p ds ++ (ds.reverse.takeWhile p).reverse := by
    intro ds
    rw [trimEnd, ← List.reverse_append, List.takeWhile_append_dropWhile, List.reverse_reverse]
  refine ⟨cs.takeWhile p, ((cs.dropWhile p).reverse.takeWhile p).reverse, ?_, ?_, ?_, ?_, ?_⟩
  · rw [trimBy, List.append_assoc, ← hend, List.takeWhile_append_dropWhile]
  · exact fun c hc => List.all_eq_true.mp List.all_takeWhile c hc
  · exact fun c hc => List.all_eq_true.mp List.all_takeWhile c (List.mem_reverse.mp hc)
  · intro c hc
    refine head_drop p cs c ?_
    rw [hend (cs.dropWhile p), List.head?_append]
    exact Option.or_eq_some_iff.mpr (Or.inl hc)
  · intro c hc
    rw [trimBy, trimEnd, List.getLast?_reverse] at hc
    exact head_drop p _ c hc

/-- A text with white space in front of another one and behind it, or with none. -/
def Surrounds (t s : String) : Prop :=
  ∃ before after : List Char, t.toList = before ++ s.toList ++ after ∧
    ∀ c ∈ before ++ after, isBlank c = true

theorem trim_surrounds (t s : String) (ht : Surrounds t s)
    (hs : ∀ c ∈ s.toList, isBlank c = false) : trim t.toList = s.toList := by
  obtain ⟨before, after, htext, hblank⟩ := ht
  rw [htext]
  exact trim_by_bare isBlank before s.toList after
    (fun c hc => hblank c (List.mem_append_left _ hc))
    (fun c hc => hblank c (List.mem_append_right _ hc)) (bare_of_all isBlank s.toList hs)

theorem surrounds_trim (t : String) : Surrounds t (String.ofList (trim t.toList)) := by
  obtain ⟨before, after, htext, hbefore, hafter, _⟩ := trim_by_chars isBlank t.toList
  refine ⟨before, after, ?_, ?_⟩
  · rw [String.toList_ofList]
    exact htext
  · intro c hc
    rcases List.mem_append.mp hc with hc | hc
    · exact hbefore c hc
    · exact hafter c hc

end Countersign.Text
