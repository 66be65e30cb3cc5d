import Countersign.Proofs.Text.Decimal
import Countersign.Time.Clock

/-!
# Times in words of 64 and 128 bits

Sums and differences of readings stop at the ends of 64 bits, and a span that has
more milliseconds than that counts as the most. Seconds are rounded from a quotient
that is rounded towards zero, and the step up or down never leaves the word.
-/

set_option autoImplicit false

namespace Countersign

namespace Millis

def saturatingAdd (a b : Millis) : Millis := clamp (a.toInt + b.toInt)

def saturatingSub (a b : Millis) : Millis := clamp (a.toInt - b.toInt)

/-- Whole seconds, rounded down: one less than the quotient if there is a negative rest. -/
def secondsDown (t : Millis) : Int64 := if t % 1000 < 0 then t / 1000 - 1 else t / 1000

def beyondSeconds (t : Millis) : Int64 := if t % 1000 < 0 then t % 1000 + 1000 else t % 1000

def secondsUp (t : Millis) : Int64 :=
  if t.beyondSeconds = 0 then t.secondsDown else saturatingAdd t.secondsDown 1

end Millis

def Duration.millisIn128 (d : Duration) : BitVec 128 :=
  d.secs.toBitVec.zeroExtend 128 * 1000#128 + BitVec.ofNat 128 (d.subsecNanos / 1000000)

/-- Whole milliseconds in 64 bits, the highest number if there is no room for them. -/
def Duration.millisIn64 (d : Duration) : Int64 :=
  (Text.toInt64? d.millisIn128.toNat).getD Int64.maxValue

theorem millis_in_128 (d : Duration) : d.millisIn128.toNat = d.millis := by
  have hsecs : d.secs.toBitVec.toNat = d.nanos / 1000000000 := Duration.toNat_secs d
  have hlt := d.nanos_lt
  rw [Duration.millisIn128, Duration.millis, Duration.subsecNanos]
  simp only [BitVec.toNat_add, BitVec.toNat_mul, BitVec.toNat_setWidth, BitVec.toNat_ofNat, hsecs]
  omega

theorem millis_in_64 (d : Duration) : d.millisIn64.toInt = d.clampedMillis := by
  have hmin : Int64.minValue.toInt = -9223372036854775808 := by decide
  have hmax : Int64.maxValue.toInt = 9223372036854775807 := by decide
  rw [Duration.millisIn64, Duration.clampedMillis, millis_in_128]
  cases h : Text.toInt64? d.millis with
  | some n =>
    have hn := (Text.to_int64_iff _ n).mp h
    have hle := n.toInt_le
    rw [Option.getD_some, hn]
    omega
  | none =>
    simp only [Text.toInt64?, ite_eq_right_iff, reduceCtorEq, imp_false] at h
    rw [Option.getD_none]
    omega

namespace Millis

theorem range (t : Millis) : -9223372036854775808 ≤ t.toInt ∧ t.toInt ≤ 9223372036854775807 := by
  have hmin : Int64.minValue.toInt = -9223372036854775808 := by decide
  have hmax : Int64.maxValue.toInt = 9223372036854775807 := by decide
  have hlow := t.minValue_le_toInt
  have hhigh := t.toInt_le
  omega

theorem clamp_exact (n : Int) :
    (clamp n).toInt = max (-9223372036854775808) (min n 9223372036854775807) := by
  have hmin : Int64.minValue.toInt = -9223372036854775808 := by decide
  have hmax : Int64.maxValue.toInt = 9223372036854775807 := by decide
  rw [toInt_clamp, hmin, hmax]

theorem toInt_max (a b : Millis) : (max a b).toInt = max a.toInt b.toInt := by
  show (if a ≤ b then b else a).toInt = max a.toInt b.toInt
  by_cases h : a ≤ b
  · rw [if_pos h, Int.max_eq_right (Int64.le_iff_toInt_le.mp h)]
  · rw [if_neg h, Int.max_eq_left (Int.le_of_lt (Int64.lt_iff_toInt_lt.mp (Int64.not_le.mp h)))]

/-- A quotient that is rounded towards zero leaves a rest on the side of the number. -/
theorem truncated (x : Int) : 1000 * x.tdiv 1000 + x.tmod 1000 = x ∧
    (0 ≤ x → 0 ≤ x.tmod 1000 ∧ x.tmod 1000 < 1000) ∧
    (x < 0 → -1000 < x.tmod 1000 ∧ x.tmod 1000 ≤ 0) := by
  refine ⟨Int.mul_tdiv_add_tmod x 1000, ?_, ?_⟩
  · intro hx
    exact ⟨Int.tmod_nonneg 1000 hx, Int.tmod_lt_of_pos x (by decide)⟩
  · intro hx
    have hneg : x.tmod 1000 = -(-x).tmod 1000 := by rw [Int.neg_tmod, Int.neg_neg]
    have hnonneg := Int.tmod_nonneg 1000 (show 0 ≤ -x by omega)
    have hlt := Int.tmod_lt_of_pos (-x) (show (0 : Int) < 1000 by decide)
    omega

section Seconds

variable (t : Millis)

theorem rest_in_64 : (t % 1000).toInt = t.toInt.tmod 1000 := Int64.toInt_mod t 1000

theorem rest_neg : t % 1000 < 0 ↔ t.toInt.tmod 1000 < 0 := by
  rw [Int64.lt_iff_toInt_lt, rest_in_64]
  rfl

theorem quotient_in_64 : (t / 1000).toInt = t.toInt.tdiv 1000 := by
  have ht := range t
  have htruncated := truncated t.toInt
  have hthousand : (1000 : Int64).toInt = 1000 := by decide
  rw [Int64.toInt_div, hthousand, Int.bmod_eq_of_le (by omega) (by omega)]

theorem seconds_down_exact : t.secondsDown.toInt = t.toInt / 1000 := by
  have ht := range t
  have htruncated := truncated t.toInt
  have hone : (1 : Int64).toInt = 1 := by decide
  rw [secondsDown]
  by_cases h : t % 1000 < 0
  · have hrest := (rest_neg t).mp h
    rw [if_pos h, Int64.toInt_sub, quotient_in_64, hone, Int.bmod_eq_of_le (by omega) (by omega)]
    omega
  · have hrest := mt (rest_neg t).mpr h
    rw [if_neg h, quotient_in_64]
    omega

theorem beyond_seconds_exact : t.beyondSeconds.toInt = t.toInt % 1000 := by
  have ht := range t
  have htruncated := truncated t.toInt
  have hthousand : (1000 : Int64).toInt = 1000 := by decide
  rw [beyondSeconds]
  by_cases h : t % 1000 < 0
  · have hrest := (rest_neg t).mp h
    rw [if_pos h, Int64.toInt_add, rest_in_64, hthousand, Int.bmod_eq_of_le (by omega) (by omega)]
    omega
  · have hrest := mt (rest_neg t).mpr h
    rw [if_neg h, rest_in_64]
    omega

theorem seconds_up_exact : t.secondsUp.toInt = (t.toInt + 999) / 1000 := by
  have ht := range t
  have hone : (1 : Int64).toInt = 1 := by decide
  have hbeyond : t.beyondSeconds = 0 ↔ t.toInt % 1000 = 0 := by
    rw [← Int64.toInt_inj, beyond_seconds_exact]
    rfl
  rw [secondsUp]
  by_cases h : t.beyondSeconds = 0
  · have hrest := hbeyond.mp h
    rw [if_pos h, seconds_down_exact]
    omega
  · have hrest := mt hbeyond.mpr h
    rw [if_neg h, saturatingAdd, clamp_exact, seconds_down_exact, hone]
    omega

end Seconds

end Millis

end Countersign
