import Countersign.Proofs.Binding.Shared
import Mathlib.Order.Bounds.Basic
import Mathlib.Tactic.ByContra

/-!
# Times in whole seconds

The server counts in whole seconds, so a time is rounded up, and no time to none at
all but to one second. As long as the number has room in 64 bits it is the least one
that the time fits into. The last second before the end of the range has no room for
its fractions: they are carried out of the 64 bits, and one second is left.
-/

set_option autoImplicit false

namespace Countersign

def Server.Command.seconds? : Server.Command → Option UInt64
  | .setFor _ _ seconds => some seconds
  | .expireNew _ seconds => some seconds
  | .expireLater _ seconds => some seconds
  | _ => none

def Script.seconds {α : Type} : Script α → List UInt64
  | .done _ => []
  | .send commands _ => commands.filterMap Server.Command.seconds?

namespace Duration

/-- Whole seconds, and one more for any rest, without a bound. -/
def seconds (d : Duration) : Nat := d.secs.toNat + if 0 < d.subsecNanos then 1 else 0

theorem seconds_le_iff (d : Duration) (n : Nat) : d.seconds ≤ n ↔ d.nanos ≤ 1000000000 * n := by
  rw [seconds, toNat_secs, subsecNanos]
  split <;> omega

theorem seconds_mono (d e : Duration) (h : d.nanos ≤ e.nanos) : d.seconds ≤ e.seconds :=
  (seconds_le_iff d _).mpr (Nat.le_trans h ((seconds_le_iff e _).mp (Nat.le_refl _)))

theorem seconds_le (d : Duration) : d.seconds ≤ 18446744073709551616 := by
  have hlt := d.nanos_lt
  rw [seconds_le_iff]
  omega

theorem seconds_lt_iff (d : Duration) :
    d.seconds < 18446744073709551616 ↔ d.nanos ≤ 1000000000 * 18446744073709551615 := by
  rw [Nat.lt_iff_le_pred (by decide)]
  exact seconds_le_iff d _

/-- A number of seconds that a key may be given for a time: at least one, and not shorter. -/
def Fits (d : Duration) (n : Nat) : Prop := 0 < n ∧ d.nanos ≤ 1000000000 * n

theorem fits_iff (d : Duration) (n : Nat) : d.Fits n ↔ max 1 d.seconds ≤ n := by
  rw [Fits, ← seconds_le_iff, Nat.max_le]
  rfl

theorem fits_least (d : Duration) : IsLeast {n | d.Fits n} (max 1 d.seconds) :=
  ⟨(fits_iff d _).mpr (Nat.le_refl _), fun _ hn => (fits_iff d _).mp hn⟩

end Duration

namespace SharedBindings

theorem toNat_max (a b : UInt64) : (max a b).toNat = max a.toNat b.toNat := by
  show (if a ≤ b then b else a).toNat = max a.toNat b.toNat
  by_cases h : a ≤ b
  · rw [if_pos h, Nat.max_eq_right (UInt64.le_iff_toNat_le.mp h)]
  · have hle : b.toNat ≤ a.toNat := Nat.le_of_not_le fun hn => h (UInt64.le_iff_toNat_le.mpr hn)
    rw [if_neg h, Nat.max_eq_left hle]

theorem toNat_whole_seconds (ttl : Duration) :
    (wholeSeconds ttl).toNat = max 1 (ttl.seconds % 18446744073709551616) := by
  rw [wholeSeconds, toNat_max, UInt64.toNat_add, Duration.seconds]
  split <;> rfl

theorem whole_seconds_room (ttl : Duration) (h : ttl.seconds < 18446744073709551616) :
    (wholeSeconds ttl).toNat = max 1 ttl.seconds := by
  rw [toNat_whole_seconds, Nat.mod_eq_of_lt h]

theorem whole_seconds_carried (ttl : Duration) (h : ¬ ttl.seconds < 18446744073709551616) :
    (wholeSeconds ttl).toNat = 1 ∧ ttl.seconds = 18446744073709551616 := by
  have hseconds : ttl.seconds = 18446744073709551616 :=
    Nat.le_antisymm ttl.seconds_le (Nat.not_lt.mp h)
  refine ⟨?_, hseconds⟩
  rw [toNat_whole_seconds, hseconds]
  rfl

/-- A put gives its keys the least positive number of seconds that is not shorter than the time, if
and only if the sum has room in 64 bits. Up to there a longer time never gets fewer seconds, and only
no time at all gets a whole second more than it has; beyond, every time gets one second. -/
theorem seconds_least_iff (root id subject : String) (ttl : Duration) :
    (putScript root id subject ttl).seconds = List.replicate 3 (wholeSeconds ttl) ∧
      (ttl.secs.toNat + (if 0 < ttl.subsecNanos then 1 else 0) ≤ 18446744073709551615 ↔
        ttl.nanos ≤ 1000000000 * 18446744073709551615) ∧
      (IsLeast {n | 0 < n ∧ ttl.nanos ≤ 1000000000 * n} (wholeSeconds ttl).toNat ↔
        ttl.nanos ≤ 1000000000 * 18446744073709551615) ∧
      (ttl.nanos ≤ 1000000000 * 18446744073709551615 → ttl.nanos ≠ 0 →
        1000000000 * (wholeSeconds ttl).toNat < ttl.nanos + 1000000000) ∧
      (1000000000 * 18446744073709551615 < ttl.nanos → wholeSeconds ttl = 1) ∧
      ∀ longer : Duration, ttl.nanos ≤ longer.nanos →
        longer.nanos ≤ 1000000000 * 18446744073709551615 →
          wholeSeconds ttl ≤ wholeSeconds longer := by
  have hbound := ttl.seconds_lt_iff
  refine ⟨rfl, Nat.lt_succ_iff.symm.trans hbound, ?_, ?_, ?_, ?_⟩
  · rw [← hbound]
    constructor
    · intro hleast
      -- one second would be the least, though the time has more
      by_contra hroom
      obtain ⟨hone, hseconds⟩ := whole_seconds_carried ttl hroom
      have hsame := hleast.unique ttl.fits_least
      rw [hone, hseconds] at hsame
      exact absurd hsame (by decide)
    · intro hroom
      rw [whole_seconds_room ttl hroom]
      exact ttl.fits_least
  · intro hroom hnonzero
    have hbelow := ttl.seconds_le_iff (ttl.seconds - 1)
    rw [whole_seconds_room ttl (hbound.mpr hroom)]
    omega
  · intro hbeyond
    have hcarried := whole_seconds_carried ttl (mt hbound.mp (Nat.not_le.mpr hbeyond))
    exact UInt64.toNat_inj.mp hcarried.1
  · intro longer hle hroom
    have hlonger := longer.seconds_lt_iff.mpr hroom
    have hmono := Duration.seconds_mono ttl longer hle
    rw [UInt64.le_iff_toNat_le, whole_seconds_room longer hlonger,
      whole_seconds_room ttl (Nat.lt_of_le_of_lt hmono hlonger)]
    omega

theorem seconds_least_iff_top :
    IsLeast {n | 0 < n ∧ (Duration.ofSecs 18446744073709551615).nanos ≤ 1000000000 * n}
        (wholeSeconds (Duration.ofSecs 18446744073709551615)).toNat ∧
      wholeSeconds ⟨18446744073709551615000000001, by decide⟩ = 1 := by
  obtain ⟨_, _, hleast, _⟩ := seconds_least_iff "" "x" "alice" (Duration.ofSecs 18446744073709551615)
  obtain ⟨_, _, _, _, hbeyond, _⟩ :=
    seconds_least_iff "" "x" "alice" ⟨18446744073709551615000000001, by decide⟩
  exact ⟨hleast.mpr (by decide), hbeyond (by decide)⟩

def boundLongest : SharedBindings := (BindingStore.put ({} : SharedBindings) "x" "alice" .longest).2

def boundLongestLater : SharedBindings :=
  { boundLongest with server := boundLongest.server.elapse 1000 }

/-- Bound for the longest time, an id is no longer bound after a second. -/
theorem longest_binding_lost :
    (¬ IsLeast {n | 0 < n ∧ Duration.longest.nanos ≤ 1000000000 * n}
        (wholeSeconds Duration.longest).toNat) ∧
      wholeSeconds Duration.longest < wholeSeconds (Duration.ofSecs 2) ∧
      (BindingStore.get boundLongest "x").1 = .ok (some "alice") ∧
      (BindingStore.get boundLongestLater "x").1 = .ok none := by
  refine ⟨?_, by decide, by decide +kernel, by decide +kernel⟩
  rintro ⟨⟨_, hlong⟩, _⟩
  exact absurd hlong (by decide)

end SharedBindings

end Countersign
