import Countersign.Policy.Basic
import Countersign.Proofs.Text.Blank
import Countersign.Proofs.Text.Separator

/-!
# Which paths a pattern opens

A pattern without `**` opens the paths of its own length that agree with it
segment by segment. The first `**` of a pattern ends the comparison: it opens all
paths that have the segments before it, and nothing behind it matters.
-/

set_option autoImplicit false

namespace Countersign.AllowList

def star : List Char := ['*']

def doubleStar : List Char := ['*', '*']

inductive Matches (P S : List (List Char)) : Prop where
  | whole (hrest : doubleStar ∉ P) (hlength : P.length = S.length)
      (hagree : ∀ i (hp : i < P.length) (hs : i < S.length), P[i] = star ∨ P[i] = S[i])
  | upTo (k : Nat) (hk : k < P.length) (hrest : P[k] = doubleStar)
      (hfirst : ∀ i (hi : i < k), P[i] ≠ doubleStar) (hlength : k ≤ S.length)
      (hagree : ∀ i (hi : i < k), P[i] = star ∨ P[i] = S[i])

theorem matches_nil (S : List (List Char)) : Matches [] S ↔ S = [] := by
  constructor
  · intro h
    cases h with
    | whole hrest hlength hagree => exact List.length_eq_zero_iff.mp hlength.symm
    | upTo k hk => exact absurd hk (Nat.not_lt_zero k)
  · rintro rfl
    exact .whole (by simp) rfl fun i hp => absurd hp (Nat.not_lt_zero i)

theorem matches_double_star (P S : List (List Char)) : Matches (doubleStar :: P) S :=
  .upTo 0 (by simp) rfl (by simp) (Nat.zero_le _) (by simp)

theorem not_matches_nil (p : List Char) (P : List (List Char)) (hp : p ≠ doubleStar) :
    ¬Matches (p :: P) [] := by
  intro h
  cases h with
  | whole hrest hlength hagree => cases hlength
  | upTo k hk hrest hfirst hlength hagree =>
    obtain rfl : k = 0 := Nat.le_zero.mp hlength
    exact hp hrest

theorem matches_cons (p s : List Char) (P S : List (List Char)) (hp : p ≠ doubleStar) :
    Matches (p :: P) (s :: S) ↔ (p = star ∨ p = s) ∧ Matches P S := by
  constructor
  · intro h
    cases h with
    | whole hrest hlength hagree =>
      refine ⟨hagree 0 (by simp) (by simp), .whole ?_ (by simpa using hlength) ?_⟩
      · exact fun h => hrest (by simp [h])
      · exact fun i hi hs => hagree (i + 1) (by simpa using hi) (by simpa using hs)
    | upTo k hk hrest hfirst hlength hagree =>
      cases k with
      | zero => exact absurd hrest hp
      | succ k =>
        refine ⟨hagree 0 (by simp), .upTo k (by simpa using hk) hrest ?_ ?_ ?_⟩
        · exact fun i hi => hfirst (i + 1) (by omega)
        · exact Nat.le_of_succ_le_succ hlength
        · exact fun i hi => hagree (i + 1) (by omega)
  · rintro ⟨hhead, h⟩
    cases h with
    | whole hrest hlength hagree =>
      refine .whole (by simp [hrest, hp.symm]) (by simp [hlength]) ?_
      intro i hi hs
      cases i with
      | zero => exact hhead
      | succ i => exact hagree i (by simpa using hi) (by simpa using hs)
    | upTo k hk hrest hfirst hlength hagree =>
      refine .upTo (k + 1) (by simpa using hk) hrest ?_ (by simpa using hlength) ?_
      · intro i hi
        cases i with
        | zero => exact hp
        | succ i => exact hfirst i (by omega)
      · intro i hi
        cases i with
        | zero => exact hhead
        | succ i => exact hagree i (by omega)

theorem match_double_star (P S : List (List Char)) :
    matchSegments (doubleStar :: P) S = true := by
  simp [matchSegments, doubleStar]

theorem match_exhausted (p : List Char) (P : List (List Char)) (hp : p ≠ doubleStar) :
    matchSegments (p :: P) [] = false := by
  rw [matchSegments]
  exact if_neg hp

theorem match_cons (p s : List Char) (P S : List (List Char)) (hp : p ≠ doubleStar) :
    matchSegments (p :: P) (s :: S) =
      ((decide (p = star) || decide (p = s)) && matchSegments P S) := by
  rw [matchSegments]
  exact if_neg hp

theorem match_segments_iff (P S : List (List Char)) :
    matchSegments P S = true ↔ Matches P S := by
  induction P generalizing S with
  | nil =>
    rw [matches_nil]
    cases S <;> simp [matchSegments]
  | cons p P ih =>
    by_cases hp : p = doubleStar
    · subst hp
      exact iff_of_true (match_double_star P S) (matches_double_star P S)
    · cases S with
      | nil =>
        rw [match_exhausted p P hp]
        exact iff_of_false Bool.false_ne_true (not_matches_nil p P hp)
      | cons s S =>
        rw [matches_cons p s P S hp, match_cons p s P S hp, Bool.and_eq_true, ih, Bool.or_eq_true,
          decide_eq_true_eq, decide_eq_true_eq]

/-! ## The segments of a text -/

/-- The segments of a text: joined with slashes, and with slashes at both ends, they make it up. -/
structure Segmented (text : List Char) (S : List (List Char)) : Prop where
  nonempty : S ≠ []
  separate : ∀ s ∈ S, '/' ∉ s
  bare : Text.IsBare (· = '/') (['/'].intercalate S)
  joined : ∃ m n, text = List.replicate m '/' ++ ['/'].intercalate S ++ List.replicate n '/'

theorem slashes (cs : List Char) (h : ∀ c ∈ cs, decide (c = '/') = true) :
    cs = List.replicate cs.length '/' :=
  List.eq_replicate_iff.mpr ⟨rfl, fun c hc => of_decide_eq_true (h c hc)⟩

theorem segmented_iff (text : String) (S : List (List Char)) :
    Segmented text.toList S ↔ segments text = S := by
  constructor
  · rintro ⟨hnonempty, hseparate, hbare, m, n, htext⟩
    have htrim : Text.trimBy (· = '/') text.toList = ['/'].intercalate S := by
      rw [htext]
      exact Text.trim_by_bare _ _ _ _ (by simp) (by simp) hbare
    rw [segments, htrim]
    exact List.splitOn_intercalate '/' hseparate hnonempty
  · rintro rfl
    obtain ⟨before, after, htext, hbefore, hafter, hbare⟩ :=
      Text.trim_by_chars (· = '/') text.toList
    have hjoined : ['/'].intercalate ((Text.trimBy (· = '/') text.toList).splitOn '/') =
        Text.trimBy (· = '/') text.toList := List.intercalate_splitOn '/'
    rw [← hjoined] at htext hbare
    refine ⟨List.splitOn_ne_nil _ _, fun s hs => Text.not_mem_of_mem_split '/' _ s hs, hbare, ?_⟩
    refine ⟨before.length, after.length, ?_⟩
    rw [← slashes before hbefore, ← slashes after hafter]
    exact htext

/-! ## The matching as a loop -/

def round : List (List Char) → List (List Char) → Bool ⊕ List (List Char) × List (List Char)
  | [], [] => .inl true
  | [], _ :: _ => .inl false
  | p :: P, S =>
    if p = doubleStar then .inl true
    else
      match S with
      | [] => .inl false
      | s :: S => if p ≠ star ∧ p ≠ s then .inl false else .inr (P, S)

def rounds : Nat → List (List Char) → List (List Char) → Option Bool
  | 0, _, _ => none
  | n + 1, P, S =>
    match round P S with
    | .inl answer => some answer
    | .inr (P, S) => rounds n P S

/-- The loop is over after no more rounds than the pattern has segments, and one. -/
theorem rounds_answer (n : Nat) (P S : List (List Char)) (h : P.length < n) :
    rounds n P S = some (matchSegments P S) := by
  induction n generalizing P S with
  | zero => exact absurd h (Nat.not_lt_zero _)
  | succ n ih =>
    cases P with
    | nil => cases S <;> rfl
    | cons p P =>
      have hleft : P.length < n := by simpa using h
      by_cases hp : p = doubleStar
      · subst hp
        rw [match_double_star]
        simp [rounds, round]
      · cases S with
        | nil =>
          rw [match_exhausted p P hp]
          simp [rounds, round, hp]
        | cons s S =>
          rw [match_cons p s P S hp]
          by_cases hagree : p = star ∨ p = s
          · have hround : round (p :: P) (s :: S) = .inr (P, S) := by
              rcases hagree with rfl | rfl <;> simp [round, hp]
            rw [rounds, hround]
            rcases hagree with rfl | rfl <;> simp [ih P S hleft]
          · rw [not_or] at hagree
            simp [rounds, round, hp, hagree]

/-- The list of patterns opens a path exactly if a pattern in it matches, segment by segment; the
loop over the segments is over for every pattern and every path, and a longer list opens no less. -/
theorem path_allowed_iff (p : Policy) (pattern path : String) :
    (∀ text S, Segmented text.toList S ↔ segments text = S) ∧
    (pathMatches pattern path = true ↔ Matches (segments pattern) (segments path)) ∧
    (∀ n, (segments pattern).length < n →
      rounds n (segments pattern) (segments path) = some (pathMatches pattern path)) ∧
    (p.allows path = true ↔ ∃ q ∈ p.allowPaths, pathMatches q path = true) ∧
    ((p.allowPath pattern).allows path = true ↔
      p.allows path = true ∨ pathMatches pattern path = true) ∧
    (∀ more : Policy, p.allowPaths ⊆ more.allowPaths → p.allows path = true →
      more.allows path = true) := by
  have hallows : ∀ q : Policy,
      q.allows path = true ↔ ∃ pattern ∈ q.allowPaths, pathMatches pattern path = true :=
    fun q => List.any_eq_true
  refine ⟨segmented_iff, match_segments_iff _ _, fun n => rounds_answer n _ _, hallows p, ?_, ?_⟩
  · rw [hallows, hallows, Policy.allowPath]
    simp [or_and_right, exists_or]
  · intro more hsub h
    obtain ⟨q, hq, hmatch⟩ := (hallows p).mp h
    exact (hallows more).mpr ⟨q, hsub hq, hmatch⟩

end Countersign.AllowList
