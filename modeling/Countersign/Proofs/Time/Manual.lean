import Countersign.Proofs.Time.Words
import Mathlib.Data.Int.ModEq
import Mathlib.Data.List.DropRight

/-!
# A clock that is moved

Between two settings a manual clock only counts. Its reading is the one that was set
last, shifted by the whole milliseconds of the moves since, in the ring of 64-bit
numbers. A shift is added whatever the reading, so the order of the moves does not
matter, and an advance is undone by a rewind of the same span, over the ends of the
range as well.
-/

set_option autoImplicit false

namespace Countersign.ManualClock

def Move.reading? : Move → Option Millis
  | .set reading => some reading
  | .advance _ => none
  | .rewind _ => none

def counted (d : Duration) : Int := min (d.nanos / 1000000 : Nat) 9223372036854775807

def Move.shift : Move → Int
  | .set _ => 0
  | .advance d => counted d
  | .rewind d => -counted d

def drift : List Move → Int
  | [] => 0
  | m :: rest => m.shift + drift rest

def origin (c : ManualClock) (moves : List Move) : Millis :=
  (moves.filterMap Move.reading?).getLastD c.now

def sinceSet (moves : List Move) : List Move := moves.rtakeWhile fun m => m.reading?.isNone

theorem counted_eq (d : Duration) : d.clampedMillis = counted d := by
  have hmax : Int64.maxValue.toInt = 9223372036854775807 := by decide
  rw [Duration.clampedMillis, hmax]
  rfl

theorem drift_append (xs ys : List Move) : drift (xs ++ ys) = drift xs + drift ys := by
  induction xs with
  | nil => simp [drift]
  | cons m xs ih =>
    simp only [List.cons_append, drift, ih]
    omega

theorem drift_perm {xs ys : List Move} (h : xs.Perm ys) : drift xs = drift ys := by
  induction h with
  | nil => rfl
  | cons m _ ih => simp only [drift, ih]
  | swap m n xs =>
    simp only [drift]
    omega
  | trans _ _ ihxs ihys => exact ihxs.trans ihys

theorem run_snoc (c : ManualClock) (moves : List Move) (m : Move) :
    c.run (moves ++ [m]) = (c.run moves).move m := by
  rw [run_append]
  rfl

theorem move_reading (c : ManualClock) (m : Move) :
    (c.move m).now = m.reading?.getD (c.now + Int64.ofInt m.shift) := by
  cases m with
  | set reading => rfl
  | advance d => simp only [move, advance, counted_eq, Move.reading?, Move.shift, Option.getD_none]
  | rewind d =>
    simp only [move, rewind, counted_eq, Move.reading?, Move.shift, Option.getD_none,
      Int64.ofInt_neg, Int64.sub_eq_add_neg]

theorem run_reading (c : ManualClock) (moves : List Move) :
    (c.run moves).now = origin c moves + Int64.ofInt (drift (sinceSet moves)) := by
  induction moves using List.reverseRecOn with
  | nil => simp [run, origin, sinceSet, drift]
  | append_singleton moves m ih =>
    rw [run_snoc, move_reading, ih, origin, origin, sinceSet, sinceSet, List.filterMap_append,
      List.rtakeWhile_concat]
    cases hm : m.reading? with
    | some reading => simp [hm, drift]
    | none => simp [hm, drift, drift_append, Int64.ofInt_add, Int64.add_assoc]

theorem origin_steps (c : ManualClock) (moves : List Move) (h : ∀ m ∈ moves, m.reading? = none) :
    origin c moves = c.now := by
  rw [origin, List.filterMap_eq_nil_iff.mpr h]
  rfl

theorem since_set_steps (moves : List Move) (h : ∀ m ∈ moves, m.reading? = none) :
    sinceSet moves = moves := by
  rw [sinceSet, List.rtakeWhile_eq_self_iff]
  intro m hm
  simp [h m hm]

theorem run_steps (c : ManualClock) (xs ys : List Move) (hxs : ∀ m ∈ xs, m.reading? = none)
    (hys : ∀ m ∈ ys, m.reading? = none) (h : drift xs = drift ys) : c.run xs = c.run ys := by
  have hnow : (c.run xs).now = (c.run ys).now := by
    rw [run_reading, run_reading, origin_steps c xs hxs, origin_steps c ys hys,
      since_set_steps xs hxs, since_set_steps ys hys, h]
  rcases hrun : c.run xs with ⟨now⟩
  rw [hrun] at hnow
  exact congrArg ManualClock.mk hnow

theorem run_around (c : ManualClock) (before xs ys after : List Move)
    (h : (c.run before).run xs = (c.run before).run ys) :
    c.run (before ++ xs ++ after) = c.run (before ++ ys ++ after) := by
  rw [run_append, run_append, run_append, run_append c before ys, h]

/-- A reading is the 64-bit number that the last setting and the moves since add up to in the ring.
So moves between two settings can be made in any order, by however many users, and an advance is
undone by a later rewind of the same span. -/
theorem reading_of_moves (c : ManualClock) :
    (∀ moves, -9223372036854775808 ≤ (c.run moves).now.toInt ∧
      (c.run moves).now.toInt ≤ 9223372036854775807 ∧
      Int.ModEq 18446744073709551616 (c.run moves).now.toInt
        ((origin c moves).toInt + drift (sinceSet moves))) ∧
    (∀ before moves others after, moves.Perm others → (∀ m ∈ moves, m.reading? = none) →
      c.run (before ++ moves ++ after) = c.run (before ++ others ++ after)) ∧
    ∀ before between after d, (∀ m ∈ between, m.reading? = none) →
      c.run (before ++ (.advance d :: between ++ [.rewind d]) ++ after) =
        c.run (before ++ between ++ after) := by
  refine ⟨?_, ?_, ?_⟩
  · intro moves
    obtain ⟨hlow, hhigh⟩ := Millis.range (c.run moves).now
    refine ⟨hlow, hhigh, ?_⟩
    rw [run_reading, Int64.toInt_add, Int64.toInt_ofInt]
    exact (Int.bmod_emod).trans (Int.ModEq.add_left _ Int.bmod_emod)
  · intro before moves others after hperm hmoves
    apply run_around
    exact run_steps _ moves others hmoves (fun m hm => hmoves m (hperm.mem_iff.mpr hm))
      (drift_perm hperm)
  · intro before between after d hbetween
    apply run_around
    apply run_steps _ _ _ _ hbetween
    · simp only [drift, drift_append, List.cons_append, Move.shift]
      omega
    · intro m hm
      simp only [List.cons_append, List.mem_cons, List.mem_append, List.not_mem_nil, or_false] at hm
      rcases hm with rfl | hm | rfl
      · rfl
      · exact hbetween m hm
      · rfl

theorem reading_of_moves_at_end :
    ManualClock.run ⟨9223372036854775807⟩ [.advance .longest, .rewind (.ofSecs 1)] =
        ManualClock.run ⟨9223372036854775807⟩ [.rewind (.ofSecs 1), .advance .longest] ∧
      ManualClock.run ⟨9223372036854775807⟩
          [.advance .longest, .rewind (.ofSecs 1), .rewind .longest] = ⟨9223372036854774807⟩ := by
  obtain ⟨_, hperm, hcancel⟩ := reading_of_moves ⟨9223372036854775807⟩
  have hsteps : ∀ m ∈ [Move.advance .longest, .rewind (.ofSecs 1)], m.reading? = none := by
    simp [Move.reading?]
  refine ⟨hperm [] _ _ [] (List.Perm.swap _ _ _) hsteps, ?_⟩
  have hback := hcancel [] [.rewind (.ofSecs 1)] [] .longest (by simp [Move.reading?])
  simp only [List.nil_append, List.append_nil, List.cons_append] at hback
  rw [hback]
  decide

end Countersign.ManualClock
