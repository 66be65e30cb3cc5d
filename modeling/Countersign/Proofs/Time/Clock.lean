import Countersign.Time.Clock

/-!
# Two clocks that move together

Readings are taken from a clock in milliseconds, spans are counted on another one
in nanoseconds. The two show the same time since some origin, the first one
without the part of a millisecond.
-/

set_option autoImplicit false

namespace Countersign

/-- A reading and an instant of two clocks that move together. -/
def Together (origin : Int) (now : Millis) (instant : Nat) : Prop :=
  now.toInt = (origin + instant) / 1000000

theorem together_span (origin : Int) (first second : Millis) (m n : Nat)
    (hm : Together origin first m) (hn : Together origin second n) (ms : Nat)
    (h : m + 1000000 * ms ≤ n) : first.toInt + ms ≤ second.toInt := by
  rw [hm, hn]
  omega

theorem together_before (origin : Int) (first second : Millis) (m n : Nat)
    (hm : Together origin first m) (hn : Together origin second n) (ms : Nat)
    (h : second.toInt < first.toInt + ms) : n < m + 1000000 * ms := by
  apply Nat.lt_of_not_le
  intro hlate
  have hspan := together_span origin first second m n hm hn ms hlate
  omega

/-- A time that is not over by its instant is over by less than a millisecond by its reading. -/
theorem together_within (origin : Int) (first second : Millis) (m n : Nat)
    (hm : Together origin first m) (hn : Together origin second n) (ms : Nat)
    (h : n < m + 1000000 * ms) : second.toInt ≤ first.toInt + ms := by
  rw [hm, hn]
  omega

theorem together_whole (origin : Int) (first second : Millis) (m n : Nat)
    (hm : Together origin first m) (hn : Together origin second n)
    (hwhole : ((n : Int) - m) % 1000000 = 0) (ms : Nat) :
    n < m + 1000000 * ms ↔ second.toInt < first.toInt + ms := by
  rw [hm, hn]
  omega

end Countersign
