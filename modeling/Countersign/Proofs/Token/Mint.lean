import Countersign.Proofs.Outcome
import Countersign.Token.Mint

/-!
# Tokens and their claims

A genuine text is a token of exactly one kind, the one that its claims say. The
claims of a new token pass the checks of its own mint, provided the clock is past
the epoch, and its time is not over when it is issued.
-/

set_option autoImplicit false

namespace Countersign

def Claims.token (c : Claims) (value : String) : Token :=
  ⟨c.id, value, c.subject, c.user, c.expireTime⟩

namespace Mint

theorem clamped_nonneg (d : Duration) : 0 ≤ d.clampedMillis := by
  have hmax : Int64.maxValue.toInt = 9223372036854775807 := by decide
  rw [Duration.clampedMillis]
  omega

theorem expiry_ge (now : Millis) (ttl : Duration) : now.toInt ≤ (expiryOf now ttl).toInt := by
  have httl := clamped_nonneg ttl
  have hle := now.toInt_le
  rw [expiryOf, Millis.toInt_clamp]
  omega

theorem seconds_nonneg (t : Millis) (h : 0 ≤ t.toInt) : ¬ ceilSeconds t < 0 := by
  have hmax : Int64.maxValue.toInt = 9223372036854775807 := by decide
  have hle := t.toInt_le
  have hvalue : (ceilSeconds t).toInt = (t.toInt + 999) / 1000 :=
    Int64.toInt_ofInt_of_le (by omega) (by omega)
  rw [Int64.lt_iff_toInt_lt, hvalue]
  change ¬ (t.toInt + 999) / 1000 < 0
  omega

variable (m : Mint)

theorem issue_token (now : Millis) (seed : Nonce) (subject : String) (user : Option User)
    (ttl : Duration) (t : Token) (h : m.issue now seed subject user ttl = .ok t) :
    t = (m.claims now seed subject user ttl).token t.value := by
  simp only [issue] at h
  split at h
  · rw [← Except.ok.inj h]
    rfl
  · cases h

theorem genuine_claims (value : String) (c : Claims) (hc : verifiedClaims m.keys value = .ok c)
    (hexpiry : ¬ c.expirySeconds < 0) (hissuer : c.issuer = m.policy.issuer)
    (haudience : c.audience = m.policy.audience) : m.genuineClaims value = .ok c := by
  refine (Outcome.bind_ok _ _ _).mpr ⟨c, hc, ?_⟩
  simp [hexpiry, hissuer, haudience]
  rfl

theorem genuine_issued (value : String) (now : Millis) (seed : Nonce) (subject : String)
    (user : Option User) (ttl : Duration) (hnow : 0 ≤ now.toInt)
    (hc : verifiedClaims m.keys value = .ok (m.claims now seed subject user ttl)) :
    m.genuineClaims value = .ok (m.claims now seed subject user ttl) := by
  have hexpiry := expiry_ge now ttl
  exact genuine_claims m value _ hc (seconds_nonneg _ (by omega)) rfl rfl

theorem decode_value (kind : TokenKind) (value : String) (t : Token)
    (h : m.decode kind value = .ok t) : ∃ c, m.genuineClaims value = .ok c ∧ t = c.token value := by
  obtain ⟨c, hc, h⟩ := (Outcome.bind_ok _ _ _).mp h
  refine ⟨c, hc, ?_⟩
  split at h
  · cases h
  · cases h
  · exact (Except.ok.inj h).symm

def wrongKind : TokenKind → Flaw
  | .access => .missingUser
  | .refresh => .unexpectedUser

/-- A genuine text is read as the kind of token that it is, and refused as the other. -/
theorem decode_genuine (value : String) (c : Claims) (hc : m.genuineClaims value = .ok c)
    (kind : TokenKind) : m.decode kind value =
      if kind = (c.token value).kind then .ok (c.token value) else .error (wrongKind kind) := by
  rw [decode, hc]
  cases kind with
  | access => cases hu : c.user <;>
      simp [bind, Except.bind, Claims.token, Token.kind, Token.isRefresh, wrongKind, hu] <;> rfl
  | refresh => cases hu : c.user <;>
      simp [bind, Except.bind, Claims.token, Token.kind, Token.isRefresh, wrongKind, hu] <;> rfl

end Mint

end Countersign
