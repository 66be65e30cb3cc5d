import Countersign.Proofs.Text.Damage
import Countersign.Proofs.Verifier.Signed

/-!
# How far a signature binds the body

A body enters the canonical request as text, and what is no text in it is replaced.
So signer and verifier agree on the text of a body and not on its bytes: a signed
text can be told from every other body exactly if it holds no replacement character.
-/

set_option autoImplicit false

namespace Countersign.Verifier

def SameBody (now : Millis) (nonce : Nonce) (s : Signable) (r : Http.Request) (h : SignedHeaders)
    (received : Bytes) : Prop :=
  (Signer.canonicalRequest now nonce s).body = (canonicalRequest r (some received) h).body

instance (now : Millis) (nonce : Nonce) (s : Signable) (r : Http.Request) (h : SignedHeaders)
    (received : Bytes) : Decidable (SameBody now nonce s r h received) :=
  inferInstanceAs (Decidable (_ = _))

theorem filter_nonempty_inj (x y : String) :
    (some x).filter (fun b => b ≠ "") = (some y).filter (fun b => b ≠ "") ↔ x = y := by
  by_cases hx : x = "" <;> by_cases hy : y = "" <;> simp [Option.filter, hx, hy, Ne.symm]

section Body

variable (now : Millis) (nonce : Nonce) (s : Signable)
  (hs : Body.participates s.contentType = true) (r : Http.Request)
  (hr : Body.participates r.contentType? = true) (h : SignedHeaders)
include hs hr

theorem same_body_iff (received : Bytes) : SameBody now nonce s r h received ↔
    Utf8.decodeLossy received = Utf8.decodeLossy s.body := by
  have hsigned : (Signer.canonicalRequest now nonce s).body =
      (some (Utf8.toStringLossy s.body)).filter fun b => b ≠ "" := by
    simp only [Signer.canonicalRequest, CanonicalRequest.of, Body.signedText, hs, if_true]
  have harrived : (canonicalRequest r (some received) h).body =
      (some (Utf8.toStringLossy received)).filter fun b => b ≠ "" := by
    simp only [canonicalRequest, CanonicalRequest.of, Body.signedText, hr, if_true,
      Option.bind_some]
  rw [SameBody, hsigned, harrived, filter_nonempty_inj, Utf8.toStringLossy, Utf8.toStringLossy,
    String.ofList_inj]
  exact eq_comm

/-- Signer and verifier agree on a body exactly if both bodies are read as the same text. Of two
bodies that are texts this means the same bytes; and a signed body can be told from all others
exactly if it is a text without a replacement character. -/
theorem same_body_bound :
    (∀ received, SameBody now nonce s r h received ↔
      Utf8.decodeLossy received = Utf8.decodeLossy s.body) ∧
    (∀ sent other, s.body = Utf8.encode sent →
      SameBody now nonce s r h (Utf8.encode other) → Utf8.encode other = s.body) ∧
    ((∀ received, SameBody now nonce s r h received → received = s.body) ↔
      ∃ sent, s.body = Utf8.encode sent ∧ Utf8.replacement ∉ sent) := by
  have hsame := same_body_iff now nonce s hs r hr h
  refine ⟨hsame, ?_, ?_⟩
  · intro sent other hsent hother
    rw [hsame, hsent, Utf8.decode_encode, Utf8.decode_encode] at hother
    rw [hsent, hother]
  · rw [← Utf8.read_alone_iff]
    exact ⟨fun hbound received hread => hbound received ((hsame received).mpr hread),
      fun halone received hread => halone received ((hsame received).mp hread)⟩

end Body

def withBody (body : Bytes) : Signable := .ofRequest sampleRequest body

def swappedHeaders : SignedHeaders :=
  ⟨"app", "0", sampleNonce.text, "i/mQn9RGv3iS4AWNWUkGViTypvjpCAdQyu+qtaRcXus="⟩

def swappedRequest : Http.Request where
  headers := sampleRequest.headers ++
    [(sampleNames.accessId, ⟨Utf8.ofString swappedHeaders.accessId, by decide⟩),
      (sampleNames.timestamp, ⟨Utf8.ofString swappedHeaders.timestamp, by decide⟩),
      (sampleNames.nonce, ⟨Utf8.ofString swappedHeaders.nonce, by decide⟩),
      (sampleNames.sign, ⟨Utf8.ofString swappedHeaders.signature, by decide⟩)]

/-- The signature over a body of one damaged byte is accepted for another damaged byte. -/
theorem swapped_body_verified :
    Body.participates (withBody [0xff]).contentType = true ∧
      Body.participates swappedRequest.contentType? = true ∧
      SameBody 0 sampleNonce (withBody [0xff]) swappedRequest swappedHeaders [0xfe] ∧
      ([0xfe] : Bytes) ≠ (withBody [0xff]).body ∧
      plainAccount.sign (Signer.canonicalRequest 0 sampleNonce (withBody [0xff])) =
        .ok swappedHeaders.signature ∧
      ((sampleVerifier 300 plainAccount).verify 0 none swappedRequest (some [0xfe])).1 =
        .verified plainAccount := by
  decide +kernel

theorem same_body_bound_text :
    Body.participates (withBody sampleBody).contentType = true ∧
      Body.participates swappedRequest.contentType? = true ∧
      ∀ received,
        SameBody 0 sampleNonce (withBody sampleBody) swappedRequest swappedHeaders received →
          received = sampleBody := by
  have hs : Body.participates (withBody sampleBody).contentType = true := by decide +kernel
  have hr : Body.participates swappedRequest.contentType? = true := by decide +kernel
  refine ⟨hs, hr, ?_⟩
  exact (same_body_bound 0 sampleNonce (withBody sampleBody) hs swappedRequest hr
    swappedHeaders).2.2.mpr ⟨"[1]".toList, rfl, by decide⟩

end Countersign.Verifier
