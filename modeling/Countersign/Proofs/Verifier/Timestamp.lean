import Countersign.Proofs.Time.Words
import Countersign.Proofs.Verifier.Checks

/-!
# Which timestamps are accepted

A timestamp is decimal text within white space, and it is accepted if it differs
from the clock by no more than the window. The difference and the window stop at
the ends of 64 bits, and nothing on the way goes beyond the bits it has: read and
compared in words of 64 and 128 bits, every timestamp meets the same answer.
-/

set_option autoImplicit false

namespace Countersign

def Millis.saturatingAbs (a : Millis) : Millis :=
  if a = Int64.minValue then Int64.maxValue else if a < 0 then -a else a

namespace Verifier

theorem skew_in_64 (now sent : Millis) :
    (now.saturatingSub sent).saturatingAbs.toInt = skew now sent := by
  have hmin : Int64.minValue.toInt = -9223372036854775808 := by decide
  have hmax : Int64.maxValue.toInt = 9223372036854775807 := by decide
  have hd : (now.saturatingSub sent).toInt = max Int64.minValue.toInt
      (min (now.toInt - sent.toInt) Int64.maxValue.toInt) := Millis.toInt_clamp _
  generalize now.saturatingSub sent = d at hd
  rw [Millis.saturatingAbs, skew]
  by_cases hlow : d = Int64.minValue
  · rw [if_pos hlow]
    rw [hlow] at hd
    omega
  · have hne : d.toInt ≠ Int64.minValue.toInt := fun h => hlow (Int64.toInt_inj.mp h)
    rw [if_neg hlow]
    by_cases hneg : d < 0
    · have hlt : d.toInt < 0 := Int64.lt_iff_toInt_lt.mp hneg
      have hvalue : (-d).toInt = -d.toInt := by
        rw [Int64.toInt_neg, Int.bmod_eq_of_le (by omega) (by omega)]
      rw [if_pos hneg]
      omega
    · have hge : ¬ d.toInt < 0 := fun h => hneg (Int64.lt_iff_toInt_lt.mpr h)
      rw [if_neg hneg]
      omega

/-- The check of a timestamp with what has room in 64 and 128 bits. -/
def checkTimestampIn64 (window : Duration) (now : Millis) (timestamp : String) :
    Except Refusal Unit :=
  match Text.int64ByDigits? (Text.trim timestamp.toList) with
  | none => .error .unreadableTimestamp
  | some sent =>
    let skew := (now.saturatingSub sent).saturatingAbs
    if window.millisIn64 < skew then .error (.skewed skew.toInt window.millisIn64.toInt)
    else .ok ()

theorem check_timestamp_in_64 (window : Duration) (now : Millis) (timestamp : String) :
    checkTimestampIn64 window now timestamp = checkTimestamp window now timestamp := by
  rw [checkTimestampIn64, checkTimestamp, Text.int64_by_digits]
  cases Text.int64? (Text.trim timestamp.toList) with
  | none => rfl
  | some sent => simp only [Int64.lt_iff_toInt_lt, skew_in_64, millis_in_64]

/-- A timestamp is accepted exactly if it is decimal text within white space, of an integer in 64
bits that the window, without any bound on its milliseconds, does not leave out; a window of more
than the longest difference leaves out none. -/
theorem timestamp_accepted_iff (p : Policy) (now : Millis) (timestamp : String) :
    checkTimestampIn64 p.window now timestamp = checkTimestamp p.window now timestamp ∧
    p.window.millisIn128.toNat = 1000 * p.windowSecs.toNat ∧
    (checkTimestamp p.window now timestamp = .ok () ↔
      ∃ numeral n, Text.Surrounds timestamp numeral ∧ Text.Denotes numeral.toList n ∧
        -9223372036854775808 ≤ n ∧ n ≤ 9223372036854775807 ∧
        ((now.toInt - n).natAbs ≤ 1000 * p.windowSecs.toNat ∨
          9223372036854775808 ≤ 1000 * p.windowSecs.toNat)) := by
  have hmin : Int64.minValue.toInt = -9223372036854775808 := by decide
  have hmax : Int64.maxValue.toInt = 9223372036854775807 := by decide
  have hmillis : p.window.millisIn128.toNat = 1000 * p.windowSecs.toNat := by
    rw [millis_in_128]
    change p.windowSecs.toNat * 1000000000 / 1000000 = 1000 * p.windowSecs.toNat
    omega
  refine ⟨check_timestamp_in_64 _ _ _, hmillis, ?_⟩
  rw [check_timestamp_ok]
  constructor
  · rintro ⟨sent, hread, hskew⟩
    obtain ⟨n, hn, hsent⟩ := Option.bind_eq_some_iff.mp hread
    have hvalue := (Text.to_int64_iff n sent).mp hsent
    have hwindow := (skew_le p.windowSecs now sent).mp hskew
    have hlow := sent.minValue_le_toInt
    have hhigh := sent.toInt_le
    refine ⟨_, n, Text.surrounds_trim timestamp, ?_, by omega, by omega, by omega⟩
    rw [String.toList_ofList]
    exact (Text.int_iff _ n).mp hn
  · rintro ⟨numeral, n, hsurrounds, hdenotes, hlow, hhigh, hwindow⟩
    have hsent : Text.toInt64? n = some (Int64.ofInt n) := by
      rw [Text.to_int64_iff]
      exact Int64.toInt_ofInt_of_le hlow (by omega)
    have hvalue := (Text.to_int64_iff n _).mp hsent
    refine ⟨Int64.ofInt n, ?_, (skew_le p.windowSecs now _).mpr (by omega)⟩
    rw [Text.trim_surrounds _ _ hsurrounds (Text.denoted_not_blank _ n hdenotes), Text.int64?,
      (Text.int_iff _ n).mpr hdenotes, Option.bind_some, hsent]

end Verifier

end Countersign
