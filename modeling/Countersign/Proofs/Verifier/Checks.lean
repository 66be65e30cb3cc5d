import Countersign.Proofs.Outcome
import Countersign.Verifier.Basic

/-!
# What each check of a verifier lets through

The header checks pass on four texts that are there, an id and a nonce that are
not empty, and a timestamp within the window on either side of the clock. Every
window of 2^63 − 1 milliseconds or more lets all timestamps through, since no
difference counts for more. The nonce is looked at, and the ledger changed, only
for a request that passed all the other checks.
-/

set_option autoImplicit false

namespace Countersign

structure SignedHeaders.ReadFrom (t : SignedHeaders) (n : HeaderNames) (h : Http.Headers) :
    Prop where
  accessId : h.text? n.accessId = some t.accessId
  timestamp : h.text? n.timestamp = some t.timestamp
  nonce : h.text? n.nonce = some t.nonce
  signature : h.text? n.sign = some t.signature

/-- The causes that are found in the headers alone. -/
def Refusal.isEarly : Refusal → Bool
  | missingAccessId => true
  | missingTimestamp => true
  | unreadableTimestamp => true
  | skewed _ _ => true
  | missingNonce => true
  | missingSignature => true
  | _ => false

theorem Refusal.echo_early (why : Refusal) (h : why.isEarly = true) : why.echo? = none := by
  cases why <;> first | rfl | cases h

namespace Verifier

theorem skew_le (secs : UInt64) (now sent : Millis) :
    skew now sent ≤ (Duration.ofSecs secs).clampedMillis ↔
      (now.toInt - sent.toInt).natAbs ≤ 1000 * secs.toNat ∨
        Int64.maxValue.toInt ≤ 1000 * secs.toNat := by
  have hmillis : (Duration.ofSecs secs).millis = 1000 * secs.toNat := by
    change secs.toNat * 1000000000 / 1000000 = 1000 * secs.toNat
    omega
  rw [skew, Duration.clampedMillis, hmillis]
  omega

theorem check_timestamp_ok (window : Duration) (now : Millis) (timestamp : String) :
    checkTimestamp window now timestamp = .ok () ↔
      ∃ sent, Text.int64? (Text.trim timestamp.toList) = some sent ∧
        skew now sent ≤ window.clampedMillis := by
  unfold checkTimestamp
  cases hs : Text.int64? (Text.trim timestamp.toList) with
  | none => simp
  | some sent =>
    by_cases hw : window.clampedMillis < skew now sent
    · simp [hw]
    · simp [hw, Int.not_lt.mp hw]

theorem check_timestamp_early (window : Duration) (now : Millis) (timestamp : String)
    (why : Refusal) (h : checkTimestamp window now timestamp = .error why) : why.isEarly = true := by
  rw [checkTimestamp] at h
  split at h
  · cases h
    rfl
  · split at h <;> cases h
    rfl

theorem require_ok (why : Refusal) (o : Option String) (s : String) :
    require why o = .ok s ↔ o = some s := by
  cases o <;> simp [require]

theorem filter_nonempty (o : Option String) (s : String) :
    o.filter (· ≠ "") = some s ↔ s ≠ "" ∧ o = some s := by
  rw [Option.filter_eq_some_iff]
  simp [and_comm]

theorem signed_headers_ok (v : Verifier) (now : Millis) (h : Http.Headers) (t : SignedHeaders) :
    v.signedHeaders now h = .ok t ↔
      t.ReadFrom v.names h ∧ t.accessId ≠ "" ∧ t.nonce ≠ "" ∧
        checkTimestamp v.policy.window now t.timestamp = .ok () := by
  unfold signedHeaders
  simp only [Outcome.bind_ok, Outcome.pure_ok, require_ok, filter_nonempty]
  constructor
  · rintro ⟨id, ⟨hid, hid'⟩, timestamp, htime, ⟨⟩, hcheck, nonce, ⟨hn, hn'⟩, signature, hs, rfl⟩
    exact ⟨⟨hid', htime, hn', hs⟩, hid, hn, hcheck⟩
  · rintro ⟨hr, hid, hn, hcheck⟩
    exact ⟨_, ⟨hid, hr.accessId⟩, _, hr.timestamp, (), hcheck, _, ⟨hn, hr.nonce⟩, _, hr.signature,
      rfl⟩

theorem authenticate_ok (v : Verifier) (r : Http.Request) (body : Option Bytes)
    (t : SignedHeaders) (a : Account) :
    v.authenticate r body t = .ok a ↔
      v.resolver t.accessId (r.headers.text? v.names.version) = .ok (some a) ∧
        a.verify (canonicalRequest r body t) t.signature = .ok true := by
  unfold authenticate
  cases hr : v.resolver t.accessId (r.headers.text? v.names.version) with
  | error e => simp
  | ok found =>
    cases found with
    | none => simp
    | some b =>
      constructor
      · intro h
        cases hv : b.verify (canonicalRequest r body t) t.signature with
        | error e => simp [hv] at h
        | ok valid =>
          cases valid with
          | false => simp [hv] at h
          | true =>
            simp only [hv, Except.ok.injEq] at h
            exact ⟨by rw [h], h ▸ hv⟩
      · rintro ⟨hb, hv⟩
        cases hb
        simp [hv]

theorem verify_verified (v : Verifier) (now : Millis) (ledger recorded : Option NonceLedger)
    (r : Http.Request) (body : Option Bytes) (a : Account) :
    v.verify now ledger r body = (.verified a, recorded) ↔
      v.skips r.method r.target.path = false ∧ ∃ t, v.signedHeaders now r.headers = .ok t ∧
        v.authenticate r body t = .ok a ∧ v.recordNonce ledger t = (true, recorded) := by
  unfold verify
  by_cases hskip : v.skips r.method r.target.path = true
  · simp [hskip]
  · cases ht : v.signedHeaders now r.headers with
    | error why => simp [hskip]
    | ok t =>
      cases ha : v.authenticate r body t with
      | error why => simp [hskip, ha]
      | ok b =>
        cases hf : v.recordNonce ledger t with
        | mk fresh after => cases fresh <;> simp [hskip, ha, hf]

/-- What a verification can do: either the ledger has no part in it, or it comes down to whether the
nonce is fresh. -/
theorem verify_cases (v : Verifier) (now : Millis) (r : Http.Request) (body : Option Bytes) :
    (∃ verdict, (∀ a, verdict ≠ .verified a) ∧
      ∀ ledger, v.verify now ledger r body = (verdict, ledger)) ∨
    ∃ t a, v.signedHeaders now r.headers = .ok t ∧ v.authenticate r body t = .ok a ∧
      ∀ ledger, v.verify now ledger r body =
        (if (v.recordNonce ledger t).1 then .verified a else .refused (.replayed t.accessId),
          (v.recordNonce ledger t).2) := by
  by_cases hskip : v.skips r.method r.target.path = true
  · exact Or.inl ⟨.skipped, by simp, fun ledger => by rw [verify, if_pos hskip]⟩
  · cases ht : v.signedHeaders now r.headers with
    | error why =>
      exact Or.inl ⟨.refused why, by simp, fun ledger => by simp only [verify, if_neg hskip, ht]⟩
    | ok t =>
      cases ha : v.authenticate r body t with
      | error why =>
        exact Or.inl ⟨.refused why, by simp,
          fun ledger => by simp only [verify, if_neg hskip, ht, ha]⟩
      | ok a =>
        exact Or.inr ⟨t, a, rfl, ha, fun ledger => by simp only [verify, if_neg hskip, ht, ha]⟩

theorem verify_ledger (v : Verifier) (now : Millis) (ledger : Option NonceLedger)
    (r : Http.Request) (body : Option Bytes) :
    (v.verify now ledger r body).2 = ledger ∨
      ∃ t, v.signedHeaders now r.headers = .ok t ∧
        (v.verify now ledger r body).2 = (v.recordNonce ledger t).2 := by
  rcases verify_cases v now r body with ⟨verdict, _, h⟩ | ⟨t, a, ht, _, h⟩
  · exact Or.inl (by rw [h])
  · exact Or.inr ⟨t, ht, by rw [h]⟩

end Verifier

end Countersign
