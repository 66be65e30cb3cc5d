import Countersign.Proofs.Time.Words
import Countersign.Proofs.Token.Usability
import Mathlib.Order.Bounds.Basic

/-!
# The times of a token

What a token says about time is counted in 64 bits, and every step has room there:
the time of expiry and its whole seconds, the second of issue, and the time for
which the token is bound. The seconds are the first at which the time is over, so a
reader that knows no milliseconds is late by less than a second and never early. A
time to live counts as at most 2^63 − 1 milliseconds, which a clock before the epoch
can tell from the end of the range.
-/

set_option autoImplicit false

namespace Countersign

namespace Mint

theorem expiry_in_words (now : Millis) (ttl : Duration) :
    expiryOf now ttl = now.saturatingAdd ttl.millisIn64 := by
  rw [Millis.saturatingAdd, millis_in_64]
  rfl

theorem expiry_exact (now : Millis) (ttl : Duration) : (expiryOf now ttl).toInt =
    min (now.toInt + min (ttl.nanos / 1000000 : Nat) 9223372036854775807) 9223372036854775807 := by
  have hnow := now.range
  have hmax : Int64.maxValue.toInt = 9223372036854775807 := by decide
  rw [expiryOf, Millis.clamp_exact, Duration.clampedMillis, Duration.millis, hmax]
  omega

section Seconds

variable (t : Millis)

theorem ceil_exact : (ceilSeconds t).toInt = (t.toInt + 999) / 1000 := by
  have ht := t.range
  have hmax : Int64.maxValue.toInt = 9223372036854775807 := by decide
  exact Int64.toInt_ofInt_of_le (by omega) (by omega)

theorem floor_exact : (floorSeconds t).toInt = t.toInt / 1000 := by
  have ht := t.range
  have hmax : Int64.maxValue.toInt = 9223372036854775807 := by decide
  exact Int64.toInt_ofInt_of_le (by omega) (by omega)

theorem ceil_in_words : ceilSeconds t = t.secondsUp :=
  Int64.toInt_inj.mp ((ceil_exact t).trans t.seconds_up_exact.symm)

theorem floor_in_words : floorSeconds t = t.secondsDown :=
  Int64.toInt_inj.mp ((floor_exact t).trans t.seconds_down_exact.symm)

theorem ceil_le_iff (s : Int) : (ceilSeconds t).toInt ≤ s ↔ t.toInt ≤ 1000 * s := by
  rw [ceil_exact]
  omega

theorem ceil_least : IsLeast {s : Int | t.toInt ≤ 1000 * s} (ceilSeconds t).toInt :=
  ⟨(ceil_le_iff t _).mp (Int.le_refl _), fun s hs => (ceil_le_iff t s).mpr hs⟩

end Seconds

theorem issue_cases (m : Mint) (now : Millis) (seed : Nonce) (subject : String) (user : Option User)
    (ttl : Duration) : m.issue now seed subject user ttl = .error .signing ∨
      ∃ t k, m.issue now seed subject user ttl = .ok t ∧
        t = (m.claims now seed subject user ttl).token t.value ∧ m.keys.signing = some k ∧
        write k (m.claims now seed subject user ttl) = .ok t.value := by
  cases hissue : m.issue now seed subject user ttl with
  | error e =>
    simp only [issue] at hissue
    split at hissue
    · cases hissue
    · exact Or.inl hissue.symm
  | ok t =>
    obtain ⟨k, hk, hwrite⟩ := m.issue_written now seed subject user ttl t hissue
    exact Or.inr ⟨t, k, rfl, m.issue_token now seed subject user ttl t hissue, hk, hwrite⟩

end Mint

/-- Whether a reader that knows only whole seconds takes a token at an instant. -/
def Claims.TakenInSeconds (c : Claims) (instant : Int) : Prop := instant / 1000 < c.expirySeconds.toInt

namespace Registry

def leftInWords (now expireTime : Millis) : Duration :=
  Duration.ofMillis (UInt64.ofNat (max (expireTime.saturatingSub now) 0).toNatClampNeg)

theorem remaining_in_words (now expireTime : Millis) :
    remaining now expireTime = leftInWords now expireTime := by
  have hmax : Int64.maxValue.toInt = 9223372036854775807 := by decide
  have hzero : (0 : Int64).toInt = 0 := by decide
  have hnat : (max (expireTime.saturatingSub now) 0).toNatClampNeg =
      (min (max (expireTime.toInt - now.toInt) 0) Int64.maxValue.toInt).toNat := by
    show (max (expireTime.saturatingSub now) 0).toInt.toNat = _
    rw [Millis.toInt_max, Millis.saturatingSub, Millis.clamp_exact, hmax, hzero]
    omega
  rw [leftInWords, hnat]
  rfl

theorem remaining_exact (now expireTime : Millis) : (remaining now expireTime).nanos =
    1000000 * (max 0 (min (expireTime.toInt - now.toInt) 9223372036854775807)).toNat := by
  have hmax : Int64.maxValue.toInt = 9223372036854775807 := by decide
  show (UInt64.ofNat (min (max (expireTime.toInt - now.toInt) 0) Int64.maxValue.toInt).toNat).toNat *
    1000000 = _
  rw [hmax, UInt64.toNat_ofNat']
  omega

/-- Bound at any reading since it was issued, a token is bound until its time is over. -/
theorem remaining_lasts (now later : Millis) (ttl : Duration) (h : now ≤ later) :
    (Mint.expiryOf now ttl).toInt ≤
      later.toInt + (remaining later (Mint.expiryOf now ttl)).millis := by
  have hle := Int64.le_iff_toInt_le.mp h
  have hexact := Mint.expiry_exact now ttl
  rw [Duration.millis, remaining_exact]
  omega

/-- What a token says about time, and what its binding lives for, follows in exact integers from the
reading and the time to live, and no step in 64 bits leaves them. -/
theorem times_of_issued {σ : Type} [BindingStore σ] (m : Mint) (now : Millis) (seed : Nonce)
    (subject : String) (user : Option User) (ttl : Duration) (c : Claims)
    (hc : c = m.claims now seed subject user ttl) :
    (m.issue now seed subject user ttl = .error .signing ∨
      ∃ t k, m.issue now seed subject user ttl = .ok t ∧ t = c.token t.value ∧
        m.keys.signing = some k ∧ Mint.write k c = .ok t.value) ∧
    (c.expireTime = now.saturatingAdd ttl.millisIn64 ∧ c.expirySeconds = c.expireTime.secondsUp ∧
      c.issuedAt = now.secondsDown) ∧
    c.expireTime.toInt =
      min (now.toInt + min (ttl.nanos / 1000000 : Nat) 9223372036854775807) 9223372036854775807 ∧
    IsLeast {s : Int | c.expireTime.toInt ≤ 1000 * s} c.expirySeconds.toInt ∧
    (∀ instant : Int, (instant < c.expireTime.toInt → c.TakenInSeconds instant) ∧
      (c.expireTime.toInt + 1000 ≤ instant → ¬ c.TakenInSeconds instant)) ∧
    c.issuedAt.toInt = now.toInt / 1000 ∧ c.issuedAt ≤ c.expirySeconds ∧
    ∀ (t : Token) (later : Millis) (s : σ), m.issue now seed subject user ttl = .ok t →
      ∃ left : Duration, left = leftInWords later t.expireTime ∧
        bind later (.ok t) s =
          ((orFailure (BindingStore.put s t.id t.subject left).1).map fun _ => t,
            (BindingStore.put s t.id t.subject left).2) ∧
        left.nanos =
          1000000 * (max 0 (min (t.expireTime.toInt - later.toInt) 9223372036854775807)).toNat ∧
        (now ≤ later → t.expireTime.toInt ≤ later.toInt + left.millis) := by
  have hexpire : c.expireTime = Mint.expiryOf now ttl := by rw [hc]; rfl
  have hseconds : c.expirySeconds = Mint.ceilSeconds c.expireTime := by rw [hc]; rfl
  have hissued : c.issuedAt = Mint.floorSeconds now := by rw [hc]; rfl
  have hceil : c.expirySeconds.toInt = (c.expireTime.toInt + 999) / 1000 :=
    hseconds ▸ Mint.ceil_exact c.expireTime
  have hfloor : c.issuedAt.toInt = now.toInt / 1000 := hissued ▸ Mint.floor_exact now
  refine ⟨hc ▸ m.issue_cases now seed subject user ttl,
    ⟨hexpire ▸ Mint.expiry_in_words now ttl, hseconds ▸ Mint.ceil_in_words c.expireTime,
      hissued ▸ Mint.floor_in_words now⟩,
    hexpire ▸ Mint.expiry_exact now ttl, hseconds ▸ Mint.ceil_least c.expireTime, ?_, hfloor, ?_, ?_⟩
  · intro instant
    unfold Claims.TakenInSeconds
    omega
  · have hge := Mint.expiry_ge now ttl
    rw [Int64.le_iff_toInt_le, hfloor, hceil, hexpire]
    omega
  · intro t later s hissue
    have hsame : t.expireTime = Mint.expiryOf now ttl := by
      rw [m.issue_token now seed subject user ttl t hissue]
      rfl
    exact ⟨remaining later t.expireTime, remaining_in_words _ _, bind_put later t s _ _ rfl,
      remaining_exact _ _, fun hlater => hsame ▸ remaining_lasts now later ttl hlater⟩

def longestToken : Token :=
  (sampleMint.issue (-1) sampleSeed "user" none Duration.longest).toOption.get (by decide +kernel)

theorem longest_issued :
    sampleMint.issue (-1) sampleSeed "user" none Duration.longest = .ok longestToken := by
  have htoken : (sampleMint.issue (-1) sampleSeed "user" none Duration.longest).toOption =
      some longestToken := (Option.some_get _).symm
  cases hissue : sampleMint.issue (-1) sampleSeed "user" none Duration.longest with
  | error e =>
    rw [hissue] at htoken
    cases htoken
  | ok t =>
    rw [hissue] at htoken
    exact congrArg Except.ok (Option.some.inj htoken)

theorem times_of_issued_longest :
    sampleMint.issue (-1) sampleSeed "user" none Duration.longest = .ok longestToken ∧
      longestToken.expireTime = 9223372036854775806 ∧
      (leftInWords 1000 longestToken.expireTime).nanos = 9223372036854774806000000 := by
  obtain ⟨_, _, hexpire, _, _, _, _, hbind⟩ := times_of_issued (σ := MemoryBindings) sampleMint (-1)
    sampleSeed "user" none Duration.longest _ rfl
  have htoken : longestToken.expireTime = 9223372036854775806 := by
    rw [← Int64.toInt_inj, sampleMint.issue_token _ _ _ _ _ _ longest_issued]
    exact hexpire
  obtain ⟨left, hleft, _, hnanos, _⟩ := hbind longestToken 1000 {} longest_issued
  refine ⟨longest_issued, htoken, ?_⟩
  rw [← hleft, hnanos, htoken]
  decide

/-- A reading before the epoch and the longest time to live reach the end of the range together, and
yet the token expires short of it. -/
theorem longest_expires_early :
    sampleMint.issue (-1) sampleSeed "user" none Duration.longest = .ok longestToken ∧
      longestToken.expireTime.toInt ≠
        min ((-1 : Millis).toInt + (Duration.longest.nanos / 1000000 : Nat)) 9223372036854775807 := by
  refine ⟨longest_issued, ?_⟩
  rw [sampleMint.issue_token _ _ _ _ _ _ longest_issued]
  show (Mint.expiryOf (-1) Duration.longest).toInt ≠ _
  decide

end Registry

end Countersign
