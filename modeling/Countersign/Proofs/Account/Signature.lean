import Countersign.Account.Basic
import Countersign.Proofs.Encoding.Base64
import Countersign.Proofs.Http.Header
import Countersign.Proofs.Rsa.Signature
import Countersign.Proofs.Text.Blank

/-!
# An account's signature verifies

A signature is written in readable characters without white space, so it comes
through a header unchanged and is decoded to the bytes that were signed with. The
verifying account may hold the same key or only its public half.
-/

set_option autoImplicit false

namespace Countersign

theorem standard_chars (b : Bytes) : ∀ c ∈ Base64.encode .standard b,
    Text.isBlank c = false ∧ Http.IsReadableChar c := by
  have alphabet : ∀ n < 64, Text.isBlank (Base64.Spelling.standard.char n) = false ∧
      Http.IsReadableChar (Base64.Spelling.standard.char n) := by decide
  intro c hc
  rcases Base64.encode_chars b c hc with rfl | ⟨n, hn, rfl⟩
  · decide
  · exact alphabet n hn

theorem signature_readable (b : Bytes) : Http.IsReadableText (encodeSignature b) := by
  intro c hc
  rw [encodeSignature, String.toList_ofList] at hc
  exact (standard_chars b c hc).2

theorem signature_decode (b : Bytes) : decodeSignature? (encodeSignature b) = some b := by
  rw [decodeSignature?, encodeSignature, String.toList_ofList,
    Text.trim_eq _ fun c hc => (standard_chars b c hc).1]
  exact Base64.decode_encode Base64.standard_lawful b

namespace KeyMaterial

/-- A key verifies what another one signs: it is that key, or has the same public half. -/
def Verifies (key signer : KeyMaterial) : Prop :=
  key = signer ∨ ∃ half, key.public? = some half ∧ signer.public? = some half

end KeyMaterial

namespace Algorithm

theorem sign_encoded (a : Algorithm) (r : CanonicalRequest) (key : KeyMaterial) (s : String)
    (h : a.sign r key = .ok s) : ∃ b, s = encodeSignature b := by
  unfold sign at h
  split at h
  · exact ⟨_, (Except.ok.inj h).symm⟩
  · split at h
    · exact ⟨_, (Except.ok.inj h).symm⟩
    · cases h
  · cases h
  · cases h

theorem verify_public (r : CanonicalRequest) (key : KeyMaterial) (half : Rsa.PublicKey)
    (b : Bytes) (hk : key.public? = some half)
    (hv : half.verify (sha256WithRsa.message r) b = true) :
    sha256WithRsa.verify r key (encodeSignature b) = .ok true := by
  cases key with
  | secret t => cases hk
  | rsaPrivate k =>
    obtain rfl : k.toPublicKey = half := Option.some.inj hk
    simp [verify, signature_decode, hv]
  | rsaPublic k =>
    obtain rfl : k = half := Option.some.inj hk
    simp [verify, signature_decode, hv]

/-- Whatever an algorithm signs, it verifies under every key that matches. -/
theorem sign_verify (a : Algorithm) (r : CanonicalRequest) (signer key : KeyMaterial) (s : String)
    (hkey : key.Verifies signer) (h : a.sign r signer = .ok s) : a.verify r key s = .ok true := by
  cases a with
  | hmacSha256 =>
    cases signer with
    | secret t =>
      rcases hkey with rfl | ⟨half, _, hs⟩
      · rw [← Except.ok.inj h]
        simp [verify, signature_decode]
      · cases hs
    | rsaPrivate k => cases h
    | rsaPublic k => cases h
  | sha256WithRsa =>
    cases signer with
    | secret t => cases h
    | rsaPublic k => cases h
    | rsaPrivate k =>
      have hpublic : key.public? = some k.toPublicKey := by
        rcases hkey with rfl | ⟨half, hk, hs⟩
        · rfl
        · rw [hk, ← hs]
          rfl
      cases hb : k.sign (sha256WithRsa.message r) with
      | error e =>
        simp only [sign, hb] at h
        cases h
      | ok b =>
        simp only [sign, hb, Except.ok.injEq] at h
        rw [← h]
        exact verify_public r key _ b hpublic (Rsa.sign_verify _ _ _ _ _ _ hb)

end Algorithm

end Countersign
