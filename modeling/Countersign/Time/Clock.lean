import Countersign.Time.Duration

/-!
# Clocks

Wall-clock readings are signed 64-bit numbers of milliseconds since the epoch.
A manual clock moves only when told; it is counted in the ring of 64-bit
numbers, so moving forward and back by the same span cancels even across the
ends of the range.
-/

set_option autoImplicit false

namespace Countersign

abbrev Millis := Int64

def Millis.clamp (n : Int) : Millis :=
  if n < Int64.minValue.toInt then Int64.minValue
  else if n ≤ Int64.maxValue.toInt then Int64.ofInt n else Int64.maxValue

theorem Millis.toInt_clamp (n : Int) :
    (clamp n).toInt = max Int64.minValue.toInt (min n Int64.maxValue.toInt) := by
  have hmin : Int64.minValue.toInt = -9223372036854775808 := by decide
  have hmax : Int64.maxValue.toInt = 9223372036854775807 := by decide
  rw [clamp]
  by_cases hlow : n < Int64.minValue.toInt
  · rw [if_pos hlow]
    omega
  · by_cases hhigh : n ≤ Int64.maxValue.toInt
    · rw [if_neg hlow, if_pos hhigh, Int64.toInt_ofInt_of_le (by omega) (by omega)]
      omega
    · rw [if_neg hlow, if_neg hhigh]
      omega

structure ManualClock where
  now : Millis := 0
deriving DecidableEq, Repr

namespace ManualClock

inductive Move where
  | set (reading : Millis)
  | advance (span : Duration)
  | rewind (span : Duration)
deriving DecidableEq, Repr

def set (_ : ManualClock) (reading : Millis) : ManualClock := ⟨reading⟩

/-- Moves the reading forward by the whole milliseconds of a span. -/
def advance (c : ManualClock) (d : Duration) : ManualClock := ⟨c.now + Int64.ofInt d.clampedMillis⟩

def rewind (c : ManualClock) (d : Duration) : ManualClock := ⟨c.now - Int64.ofInt d.clampedMillis⟩

def move (c : ManualClock) : Move → ManualClock
  | .set reading => c.set reading
  | .advance d => c.advance d
  | .rewind d => c.rewind d

def run (c : ManualClock) (moves : List Move) : ManualClock := moves.foldl move c

theorem run_append (c : ManualClock) (xs ys : List Move) :
    c.run (xs ++ ys) = (c.run xs).run ys := by
  simp [run]

end ManualClock

end Countersign
