import Countersign.Proofs.Canonical.LinesForm
import Countersign.Proofs.Verifier.Tampering

/-!
# What a signature over lines pins down

A request that passes the header checks and has the lines form of a signed one is
the signed one, up to one ambiguity: lines of the query may count as lines of the
body, or the other way round. The content type decides whether there is a body,
and it is not signed, so whoever carries the request can choose the place.
-/

set_option autoImplicit false

namespace Countersign.Verifier

theorem read_text (h : Http.Headers) (name : Http.HeaderName) (s : String)
    (hs : h.text? name = some s) : Http.IsReadableText s := by
  obtain ⟨v, _, hv⟩ := Option.bind_eq_some_iff.mp hs
  exact Http.readable_of_text v s hv

theorem break_not_readable : ¬ Http.IsReadableChar '\n' := by decide

theorem path_no_break (path : String) (h : path.toList.all Http.isPathChar = true) :
    '\n' ∉ path.toList := by
  intro hm
  exact absurd (List.all_eq_true.mp h '\n' hm) (by decide)

theorem signed_lined (now : Millis) (nonce : Nonce) (s : Signable)
    (hpath : s.path.toList.all Http.isPathChar = true) :
    (Signer.canonicalRequest now nonce s).Lined where
  method_space := method_token s.method _ _ _ _ _ ' ' (by decide)
  method := method_token s.method _ _ _ _ _ '\n' (by decide)
  path := path_no_break s.path hpath
  timestamp := by
    intro hm
    have hn := Text.int64_chars _ now (Text.int64_text now) '\n' hm
    unfold Text.IsNumeral at hn
    exact absurd hn (by decide)
  nonce := fun hm => absurd (nonce.isAlphanum_of_mem '\n' hm) (by decide)

theorem arrived_lined (v : Verifier) (now : Millis) (r : Http.Request) (body : Option Bytes)
    (t : SignedHeaders) (h : v.signedHeaders now r.headers = .ok t) :
    (canonicalRequest r body t).Lined := by
  obtain ⟨hread, _, _, _⟩ := (signed_headers_ok v now r.headers t).mp h
  refine ⟨?_, ?_, ?_, ?_, ?_⟩
  · exact method_token r.method _ _ _ _ _ ' ' (by decide)
  · exact method_token r.method _ _ _ _ _ '\n' (by decide)
  · exact path_no_break r.target.path r.target.path_valid
  · exact fun hm => break_not_readable (read_text _ _ _ hread.timestamp '\n' hm)
  · exact fun hm => break_not_readable (read_text _ _ _ hread.nonce '\n' hm)

/-- A request with checked headers has the lines form of a signed one exactly when it is the signed
request, or some lines have moved between query and body. -/
theorem lines_form_of_signed (v : Verifier) (later : Millis) (r : Http.Request)
    (body : Option Bytes) (t : SignedHeaders) (h : v.signedHeaders later r.headers = .ok t)
    (now : Millis) (nonce : Nonce) (s : Signable)
    (hpath : s.path.toList.all Http.isPathChar = true) :
    (Signer.canonicalRequest now nonce s).linesForm = (canonicalRequest r body t).linesForm ↔
      Signer.canonicalRequest now nonce s = canonicalRequest r body t ∨
        ((Signer.canonicalRequest now nonce s).SameHead (canonicalRequest r body t) ∧
          ((Signer.canonicalRequest now nonce s).Spilled (canonicalRequest r body t) ∨
            (canonicalRequest r body t).Spilled (Signer.canonicalRequest now nonce s))) :=
  CanonicalRequest.lines_form_eq _ _ (signed_lined now nonce s hpath)
    (arrived_lined v later r body t h) (CanonicalRequest.of_tidy _ _ _ _ _ _)
    (CanonicalRequest.of_tidy _ _ _ _ _ _)

def brokenQuery : Signable := { method := .get, path := "/p", query := some "a=x%0Ay" }

def spilledHeaders : SignedHeaders := ⟨"app", "0", sampleNonce.text, "AAAA"⟩

def spilledRequest : Http.Request where
  target := { forgedRequest.target with query := some "a=x", query_valid := by decide }
  headers :=
    sampleRequest.headers ++
      [(sampleNames.accessId, ⟨Utf8.ofString spilledHeaders.accessId, by decide⟩),
        (sampleNames.timestamp, ⟨Utf8.ofString spilledHeaders.timestamp, by decide⟩),
        (sampleNames.nonce, ⟨Utf8.ofString spilledHeaders.nonce, by decide⟩),
        (sampleNames.sign, ⟨Utf8.ofString spilledHeaders.signature, by decide⟩)]

def spilledBody : Bytes := Utf8.ofString "y\n"

theorem rsa_verify_lines (a : Account) (ha : a.algorithm = .sha256WithRsa)
    (r s : CanonicalRequest) (h : r.linesForm = s.linesForm) (signature : String) :
    a.verify r signature = a.verify s signature := by
  have hmessage : Algorithm.message .sha256WithRsa r = Algorithm.message .sha256WithRsa s :=
    congrArg Utf8.ofString h
  rw [Account.verify, Account.verify, ha]
  cases a.key with
  | secret text => rfl
  | rsaPrivate k => simp only [Algorithm.verify, hmessage]
  | rsaPublic k => simp only [Algorithm.verify, hmessage]

theorem spilled_form : (Signer.canonicalRequest 0 sampleNonce brokenQuery).linesForm =
    (canonicalRequest spilledRequest (some spilledBody) spilledHeaders).linesForm := by
  decide +kernel

/-- The end of a signed query is accepted as a body: another request, which every RSA signature over
the signed one covers as well. -/
theorem query_accepted_as_body :
    brokenQuery.path.toList.all Http.isPathChar = true ∧
      (sampleVerifier 300 plainAccount).signedHeaders 0 spilledRequest.headers =
        .ok spilledHeaders ∧
      (Signer.canonicalRequest 0 sampleNonce brokenQuery).linesForm =
        (canonicalRequest spilledRequest (some spilledBody) spilledHeaders).linesForm ∧
      Signer.canonicalRequest 0 sampleNonce brokenQuery ≠
        canonicalRequest spilledRequest (some spilledBody) spilledHeaders ∧
      ∀ (a : Account) (signature : String), a.algorithm = .sha256WithRsa →
        a.verify (Signer.canonicalRequest 0 sampleNonce brokenQuery) signature = .ok true →
        a.verify (canonicalRequest spilledRequest (some spilledBody) spilledHeaders) signature =
          .ok true := by
  refine ⟨by decide, by decide +kernel, spilled_form, by decide +kernel, fun a signature ha h => ?_⟩
  rw [← rsa_verify_lines a ha _ _ spilled_form]
  exact h

theorem lines_form_of_signed_spilled :
    brokenQuery.path.toList.all Http.isPathChar = true ∧
      (sampleVerifier 300 plainAccount).signedHeaders 0 spilledRequest.headers =
        .ok spilledHeaders ∧
      (Signer.canonicalRequest 0 sampleNonce brokenQuery).SameHead
        (canonicalRequest spilledRequest (some spilledBody) spilledHeaders) := by
  have hpath : brokenQuery.path.toList.all Http.isPathChar = true := by decide
  have hread : (sampleVerifier 300 plainAccount).signedHeaders 0 spilledRequest.headers =
      .ok spilledHeaders := by decide +kernel
  refine ⟨hpath, hread, ?_⟩
  rcases (lines_form_of_signed (sampleVerifier 300 plainAccount) 0 spilledRequest (some spilledBody)
    spilledHeaders hread 0 sampleNonce brokenQuery hpath).mp spilled_form with hsame | ⟨hhead, _⟩
  · exact hsame ▸ ⟨rfl, rfl, rfl, rfl⟩
  · exact hhead

end Countersign.Verifier
