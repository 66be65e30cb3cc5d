import Countersign.Proofs.Verifier.Acceptance

/-!
# The checks that come before the body

What can be said of a request from its headers alone is said by the first checks,
and a verification says the same of it. A body whose type is not signed has no
part in a verification.
-/

set_option autoImplicit false

namespace Countersign.Verifier

variable (v : Verifier) (now : Millis) (ledger : Option NonceLedger) (r : Http.Request)
  (body : Option Bytes)

theorem signed_headers_early (h : Http.Headers) (why : Refusal)
    (herror : v.signedHeaders now h = .error why) : why.isEarly = true := by
  unfold signedHeaders at herror
  rcases (Outcome.bind_error _ _ _).mp herror with hid | ⟨_, _, herror⟩
  · obtain ⟨_, rfl⟩ := (require_error _ _ _).mp hid
    rfl
  rcases (Outcome.bind_error _ _ _).mp herror with htime | ⟨timestamp, _, herror⟩
  · obtain ⟨_, rfl⟩ := (require_error _ _ _).mp htime
    rfl
  rcases (Outcome.bind_error _ _ _).mp herror with hage | ⟨_, _, herror⟩
  · exact check_timestamp_early _ now timestamp why hage
  rcases (Outcome.bind_error _ _ _).mp herror with hnonce | ⟨_, _, herror⟩
  · obtain ⟨_, rfl⟩ := (require_error _ _ _).mp hnonce
    rfl
  rcases (Outcome.bind_error _ _ _).mp herror with hsign | ⟨_, _, herror⟩
  · obtain ⟨_, rfl⟩ := (require_error _ _ _).mp hsign
    rfl
  · cases herror

theorem authenticate_late (t : SignedHeaders) (why : Refusal)
    (h : v.authenticate r body t = .error why) : why.isEarly = false := by
  unfold authenticate at h
  dsimp only at h
  split at h
  · cases h
    rfl
  · cases h
    rfl
  · split at h <;> cases h <;> rfl

theorem precheck_error (why : Refusal) :
    v.precheck now r = .error why ↔
      v.skips r.method r.target.path = false ∧ v.signedHeaders now r.headers = .error why := by
  unfold precheck
  by_cases hskip : v.skips r.method r.target.path = true
  · simp [hskip]
  · rw [if_neg hskip, Outcome.bind_error]
    constructor
    · rintro (herror | ⟨_, _, hpure⟩)
      · exact ⟨by simpa using hskip, herror⟩
      · cases hpure
    · exact fun h => Or.inl h.2

/-- The first checks find at once what a verification would find in the headers. -/
theorem precheck_error_iff (why : Refusal) :
    v.precheck now r = .error why ↔
      (v.verify now ledger r body).1 = .refused why ∧ why.isEarly = true := by
  rw [precheck_error]
  constructor
  · rintro ⟨hskip, herror⟩
    refine ⟨?_, signed_headers_early v now r.headers why herror⟩
    simp [verify, hskip, herror]
  · rintro ⟨hverify, hearly⟩
    unfold verify at hverify
    split at hverify
    · cases hverify
    · next hskip =>
      refine ⟨by simpa using hskip, ?_⟩
      cases ht : v.signedHeaders now r.headers with
      | error other =>
        simp only [ht] at hverify
        cases hverify
        rfl
      | ok t =>
        cases ha : v.authenticate r body t with
        | error other =>
          simp only [ht, ha] at hverify
          cases hverify
          exact absurd (authenticate_late v r body t why ha) (by simp [hearly])
        | ok a =>
          simp only [ht, ha] at hverify
          split at hverify <;> cases hverify
          cases hearly

theorem verify_unread (h : requiresBody r = false) :
    v.verify now ledger r body = v.verify now ledger r none := by
  have hsame : ∀ t, v.authenticate r body t = v.authenticate r none t := by
    intro t
    simp only [authenticate, arrived_eq, arrived, h]
    rfl
  simp only [verify, hsame]

end Countersign.Verifier
