/-!
# Durations

A span of time in nanoseconds, up to the longest one: 2^64 − 1 seconds and
999,999,999 nanoseconds. Every operation that could pass the longest span stops
there.
-/

set_option autoImplicit false

namespace Countersign

structure Duration where
  nanos : Nat
  nanos_lt : nanos < 18446744073709551616000000000
deriving DecidableEq, Repr

namespace Duration

def longest : Duration := ⟨18446744073709551615999999999, by decide⟩

/-- The span of `n` nanoseconds, at most the longest one. -/
def ofNanos (n : Nat) : Duration :=
  if h : n < 18446744073709551616000000000 then ⟨n, h⟩ else longest

def zero : Duration := ofNanos 0

def ofSecs (s : UInt64) : Duration :=
  ⟨s.toNat * 1000000000, by have := s.toNat_lt; omega⟩

def ofMillis (ms : UInt64) : Duration :=
  ⟨ms.toNat * 1000000, by have := ms.toNat_lt; omega⟩

def secs (d : Duration) : UInt64 := UInt64.ofNat (d.nanos / 1000000000)

def subsecNanos (d : Duration) : Nat := d.nanos % 1000000000

def millis (d : Duration) : Nat := d.nanos / 1000000

def clampedMillis (d : Duration) : Int := min (d.millis : Int) Int64.maxValue.toInt

def double (d : Duration) : Duration := ofNanos (2 * d.nanos)

protected def min (d e : Duration) : Duration := if d.nanos ≤ e.nanos then d else e

theorem toNat_secs (d : Duration) : d.secs.toNat = d.nanos / 1000000000 := by
  have := d.nanos_lt
  simp only [secs, UInt64.toNat_ofNat']
  omega

theorem nanos_min (d e : Duration) : (d.min e).nanos = min d.nanos e.nanos := by
  simp only [Duration.min]
  split <;> omega

end Duration

end Countersign
