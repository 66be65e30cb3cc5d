import Countersign.Proofs.Canonical.DigestForm
import Countersign.Proofs.Verifier.Signed

/-!
# What a keyed digest of a request pins down

A request that passes the header checks and has the digest form of a signed one
is the signed one, as far as the form tells, up to one ambiguity: since neither
path nor nonce is escaped, the tail of the signed path may have moved into the
nonce. A signer's own nonce holds no separator, so nothing moves the other way.
-/

set_option autoImplicit false

namespace Countersign.Verifier

theorem upper_token (c : Char) (h : Http.isTokenChar c = true) : Http.isTokenChar c.toUpper = true := by
  by_cases hl : 'a'.val ≤ c.val ∧ c.val ≤ 'z'.val
  · have hupper : c.toUpper = ⟨c.val + ('A'.val - 'a'.val), _⟩ := dif_pos hl
    have hlow : 97 ≤ c.val.toNat := UInt32.le_iff_toNat_le.mp hl.1
    have hhigh : c.val.toNat ≤ 122 := UInt32.le_iff_toNat_le.mp hl.2
    have hval : c.toUpper.val.toNat = c.val.toNat - 32 := by
      have hshift : ('A'.val - 'a'.val).toNat = 4294967264 := rfl
      rw [hupper, UInt32.toNat_add, hshift]
      omega
    have hletter : c.toUpper.isUpper = true := by
      have hA : 'A'.val.toNat = 65 := rfl
      have hZ : 'Z'.val.toNat = 90 := rfl
      have hbounds : 'A'.val ≤ c.toUpper.val ∧ c.toUpper.val ≤ 'Z'.val := by
        rw [UInt32.le_iff_toNat_le, UInt32.le_iff_toNat_le, hval, hA, hZ]
        omega
      exact decide_eq_true hbounds
    have halphanum : c.toUpper.isAlphanum = true := by
      rw [Char.isAlphanum, Bool.or_eq_true]
      exact Or.inl (Bool.or_eq_true_iff.mpr (Or.inl hletter))
    simp [Http.isTokenChar, halphanum]
  · have hupper : c.toUpper = c := dif_neg hl
    rw [hupper]
    exact h

theorem method_token (m : Http.Method) (path nonce timestamp : String)
    (query body : Option String) (c : Char) (hc : Http.isTokenChar c = false) :
    c ∉ (CanonicalRequest.of m.text path nonce timestamp query body).method.toList := by
  rw [CanonicalRequest.of, String.toList_ofList, List.mem_map]
  rintro ⟨d, hd, rfl⟩
  have hm := m.wellFormed
  rw [Http.isToken, Bool.and_eq_true] at hm
  rw [upper_token d (List.all_eq_true.mp hm.2 d hd)] at hc
  cases hc

theorem method_chars (m : Http.Method) (path nonce timestamp : String)
    (query body : Option String) :
    '=' ∉ (CanonicalRequest.of m.text path nonce timestamp query body).method.toList :=
  method_token m path nonce timestamp query body '=' (by decide)

theorem ampersand_not_numeral : ¬ Text.IsNumeral '&' := by
  unfold Text.IsNumeral
  decide

theorem checked_timestamp_chars (window : Duration) (now : Millis) (timestamp : String)
    (h : checkTimestamp window now timestamp = .ok ()) : '&' ∉ timestamp.toList := by
  obtain ⟨sent, hsent, _⟩ := (check_timestamp_ok window now timestamp).mp h
  intro hm
  rcases Text.blank_or_mem_trim timestamp.toList '&' hm with hb | ht
  · exact absurd hb (by decide)
  · exact ampersand_not_numeral (Text.int64_chars _ sent hsent '&' ht)

theorem sent_timestamp_chars (now : Millis) : '&' ∉ (Text.ofInt64 now).toList :=
  fun hm => ampersand_not_numeral (Text.int64_chars _ now (Text.int64_text now) '&' hm)

theorem nonce_chars (nonce : Nonce) : '&' ∉ nonce.text.toList :=
  fun hm => absurd (nonce.isAlphanum_of_mem '&' hm) (by decide)

/-- A request with checked headers has the digest form of a signed one exactly when all fields agree,
up to digests, or the tail of the signed path has moved into the nonce. -/
theorem digest_form_of_signed (v : Verifier) (later : Millis) (r : Http.Request)
    (body : Option Bytes) (t : SignedHeaders) (h : v.signedHeaders later r.headers = .ok t)
    (now : Millis) (nonce : Nonce) (s : Signable) :
    (Signer.canonicalRequest now nonce s).digestForm = (canonicalRequest r body t).digestForm ↔
      (Signer.canonicalRequest now nonce s).Alike (canonicalRequest r body t) ∧
        ((s.path = r.target.path ∧ nonce.text = t.nonce) ∨
          (Signer.canonicalRequest now nonce s).Shifted (canonicalRequest r body t)) := by
  obtain ⟨_, _, _, hcheck⟩ := (signed_headers_ok v later r.headers t).mp h
  exact CanonicalRequest.digest_form_eq _ _ (method_chars s.method _ _ _ _ _)
    (method_chars r.method _ _ _ _ _) (sent_timestamp_chars now)
    (checked_timestamp_chars _ later _ hcheck) (nonce_chars nonce)

def forgedNonce : String := "x&nonce=" ++ sampleNonce.text

def forgedHeaders : SignedHeaders :=
  ⟨"app", "0", forgedNonce, "jL1lGsKYfCUpuu8k7SzEBaZ+dzFC+z5OpiFdEgcRDss="⟩

def forgedRequest : Http.Request where
  target := { Http.Target.root with path := "/p", path_valid := by decide }
  headers :=
    [(sampleNames.accessId, ⟨Utf8.ofString forgedHeaders.accessId, by decide⟩),
      (sampleNames.timestamp, ⟨Utf8.ofString forgedHeaders.timestamp, by decide⟩),
      (sampleNames.nonce, ⟨Utf8.ofString forgedHeaders.nonce, by decide⟩),
      (sampleNames.sign, ⟨Utf8.ofString forgedHeaders.signature, by decide⟩)]

/-- The signature over one path is accepted for another one. -/
theorem forged_path_verified :
    plainAccount.sign (Signer.canonicalRequest 0 sampleNonce
        { method := .get, path := "/p&nonce=x" }) = .ok forgedHeaders.signature ∧
      (sampleVerifier 300 plainAccount).signedHeaders 0 forgedRequest.headers = .ok forgedHeaders ∧
      (Signer.canonicalRequest 0 sampleNonce { method := .get, path := "/p&nonce=x" }).digestForm =
        (canonicalRequest forgedRequest none forgedHeaders).digestForm ∧
      "/p&nonce=x" ≠ forgedRequest.target.path ∧
      ((sampleVerifier 300 plainAccount).verify 0 none forgedRequest none).1 = .verified plainAccount := by
  decide +kernel

theorem digest_form_of_signed_forged :
    (sampleVerifier 300 plainAccount).signedHeaders 0 forgedRequest.headers = .ok forgedHeaders ∧
      (Signer.canonicalRequest 0 sampleNonce { method := .get, path := "/p&nonce=x" }).digestForm =
        (canonicalRequest forgedRequest none forgedHeaders).digestForm := by
  have hread : (sampleVerifier 300 plainAccount).signedHeaders 0 forgedRequest.headers = .ok forgedHeaders := by
    decide +kernel
  refine ⟨hread, ?_⟩
  rw [digest_form_of_signed (sampleVerifier 300 plainAccount) 0 forgedRequest none forgedHeaders hread]
  exact ⟨⟨by decide, by decide, rfl, rfl⟩, Or.inr ⟨"x", by decide, by decide⟩⟩

end Countersign.Verifier
