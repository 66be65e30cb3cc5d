import Countersign.Proofs.Verifier.Early
import Countersign.Proofs.Verifier.Signed

/-!
# Signed headers are read back

Whatever request carries the headers of a signature, a verifier of the signer's
policy reads from it the account's id and version, the time, the nonce and the
signature, provided that id and version are texts that a header can be read back
with. Its first checks then pass within the window, unless the id is empty: an
account without a name can sign, but no verifier asks who it is.
-/

set_option autoImplicit false

namespace Countersign.Verifier

/-- A request in which each name of a signature stands for what the headers give it. -/
def Carries (r : Http.Request) (n : HeaderNames) (headers : Http.Headers) : Prop :=
  ∀ name ∈ n.all, r.headers.get? name = headers.get? name

theorem carried_text {r : Http.Request} {n : HeaderNames} {headers : Http.Headers}
    (h : Carries r n headers) (name : Http.HeaderName) (hname : name ∈ n.all) :
    r.headers.text? name = headers.text? name := by
  rw [Http.Headers.text?, Http.Headers.text?, h name hname]

theorem signed_headers_read (p : Policy) (g : Signer) (hg : Signer.ofPolicy p = .ok g)
    (now : Millis) (nonce : Nonce) (s : Signable) (account : Account) (headers : Http.Headers)
    (h : g.signedHeaders now nonce s account = .ok headers)
    (hid : Http.IsReadableText account.accessId)
    (hversion : ∀ w, account.version = some w → Http.IsReadableText w) :
    ∃ signature, account.sign (Signer.canonicalRequest now nonce s) = .ok signature ∧
      headers.text? g.names.version = account.version ∧
      SignedHeaders.ReadFrom ⟨account.accessId, Text.ofInt64 now, nonce.text, signature⟩ g.names
        headers := by
  obtain ⟨signature, hsign, hwrote⟩ := Signer.signed_headers_wrote g now nonce s account headers h
  have reads : ∀ p ∈ SignedHeaders.texts ⟨account.accessId, Text.ofInt64 now, nonce.text, signature⟩
      g.names account.version, Http.IsReadableText p.2 → headers.text? p.1 = some p.2 := by
    intro p hp hr
    obtain ⟨value, hvalue, hvalues, _⟩ := Signer.wrote_values hwrote
      (Signer.texts_nodup _ g hg _ _) p hp
    exact Signer.text_of_value headers p.1 p.2 value hvalue hvalues hr
  refine ⟨signature, hsign, ?_, Signer.read_from account now nonce signature _ g.names headers hsign
    reads hid⟩
  cases hv : account.version with
  | none =>
    have habsent := (Signer.unwritten_values p g hg now nonce s account headers h g.names.version
      (Or.inr ⟨rfl, hv⟩)).1
    rw [Http.Headers.text?, Http.Headers.get_eq_head, habsent]
    rfl
  | some w =>
    exact reads (g.names.version, w) (by simp [SignedHeaders.texts, hv]) (hversion w hv)

theorem unnamed_refused (v : Verifier) (now : Millis) (r : Http.Request)
    (hskip : v.skips r.method r.target.path = false)
    (h : r.headers.text? v.names.accessId = some "") :
    v.precheck now r = .error .missingAccessId := by
  rw [precheck_error, signedHeaders, Outcome.bind_error, require_error, filter_empty]
  refine ⟨hskip, Or.inl ⟨?_, rfl⟩⟩
  rintro s hs
  exact Option.some.inj (hs.symm.trans h)

/-- What a signer sends for readable texts is what a verifier reads. The first checks pass within the
window for every account that has a name. -/
theorem sent_headers_read (p : Policy) (resolver : Resolver) (g : Signer) (v : Verifier)
    (hg : Signer.ofPolicy p = .ok g) (hv : ofPolicy p resolver = .ok v) (now later : Millis)
    (nonce : Nonce) (s : Signable) (account : Account) (headers : Http.Headers)
    (hheaders : g.signedHeaders now nonce s account = .ok headers)
    (hid : Http.IsReadableText account.accessId)
    (hversion : ∀ w, account.version = some w → Http.IsReadableText w)
    (r : Http.Request) (hcarries : Carries r g.names headers)
    (hskip : v.skips r.method r.target.path = false)
    (hwindow : (later.toInt - now.toInt).natAbs ≤ 1000 * p.windowSecs.toNat) :
    r.headers.text? v.names.accessId = some account.accessId ∧
      r.headers.text? v.names.version = account.version ∧
      (account.accessId ≠ "" → v.precheck later r = .ok () ∧
        ∃ signature, account.sign (Signer.canonicalRequest now nonce s) = .ok signature ∧
          v.signedHeaders later r.headers =
            .ok ⟨account.accessId, Text.ofInt64 now, nonce.text, signature⟩) ∧
      (account.accessId = "" → v.precheck later r = .error .missingAccessId) := by
  obtain ⟨hnames, hpolicy, _⟩ := of_policy_fields p resolver v hv
  have hsame : g.names = v.names :=
    Except.ok.inj ((Signer.of_policy_names p g hg).symm.trans hnames)
  obtain ⟨signature, hsign, hreadVersion, hread⟩ :=
    signed_headers_read p g hg now nonce s account headers hheaders hid hversion
  have carried := carried_text hcarries
  rw [hsame] at carried hread hreadVersion
  have hidText : r.headers.text? v.names.accessId = some account.accessId :=
    (carried _ (by simp [HeaderNames.all])).trans hread.accessId
  refine ⟨hidText, (carried _ (by simp [HeaderNames.all])).trans hreadVersion, ?_, ?_⟩
  · intro hnamed
    have hheaders : v.signedHeaders later r.headers =
        .ok ⟨account.accessId, Text.ofInt64 now, nonce.text, signature⟩ := by
      rw [signed_headers_ok, hpolicy]
      refine ⟨⟨hidText, ?_, ?_, ?_⟩, hnamed, nonce_nonempty nonce,
        check_timestamp_now p now later hwindow⟩
      · exact (carried _ (by simp [HeaderNames.all])).trans hread.timestamp
      · exact (carried _ (by simp [HeaderNames.all])).trans hread.nonce
      · exact (carried _ (by simp [HeaderNames.all])).trans hread.signature
    refine ⟨?_, signature, hsign, hheaders⟩
    rw [precheck, hskip, hheaders]
    rfl
  · intro hunnamed
    exact unnamed_refused v later r hskip (hunnamed ▸ hidText)

def sentHeaders (account : Account) : Except SignatureError Http.Headers :=
  Signer.signedHeaders ⟨sampleNames⟩ 0 sampleNonce { method := .get, path := "/" } account

theorem sent_headers_read_named : ∃ headers, sentHeaders sampleAccount = .ok headers ∧
    (sampleVerifier 300 plainAccount).precheck 300000 { headers := headers } = .ok () ∧
    Http.Headers.text? headers sampleNames.version = some "2" := by
  obtain ⟨headers, hheaders, _⟩ := Outcome.ok_of_any (sentHeaders sampleAccount) (fun _ => true)
    (by decide +kernel)
  have hverifier : ofPolicy {} (Directory.ofList [plainAccount]).resolver =
      .ok (sampleVerifier 300 plainAccount) := by
    rw [ofPolicy, sample_names]
    rfl
  have hskip : (sampleVerifier 300 plainAccount).skips .get Http.Target.root.path = false := by
    decide +kernel
  obtain ⟨_, hversion, hnamed, _⟩ := sent_headers_read {} _ _ _ sample_signer hverifier 0 300000
    sampleNonce { method := .get, path := "/" } sampleAccount headers hheaders
    sample_presentable.accessId sample_presentable.version { headers := headers }
    (fun _ _ => rfl) hskip (by decide)
  exact ⟨headers, hheaders, (hnamed sample_presentable.named).1, hversion⟩

/-- An account without a name sends headers that are refused, and a name or a version may be spelled
in letters that are not read. -/
theorem sent_headers_unread :
    (∃ headers, sentHeaders { plainAccount with accessId := "" } = .ok headers ∧
      (sampleVerifier 300 plainAccount).precheck 0 { headers := headers } =
        .error .missingAccessId) ∧
      ∃ headers, sentHeaders { plainAccount with accessId := "é", version := some "é" } =
          .ok headers ∧
        (sampleVerifier 300 plainAccount).precheck 0 { headers := headers } =
          .error .missingAccessId ∧
        Http.Headers.text? headers sampleNames.version = none := by
  obtain ⟨headers, hheaders, hrefused⟩ := Outcome.ok_of_any
    (sentHeaders { plainAccount with accessId := "" })
    (fun headers => decide ((sampleVerifier 300 plainAccount).precheck 0 { headers := headers } =
      .error .missingAccessId))
    (by decide +kernel)
  obtain ⟨others, hothers, hunread⟩ := Outcome.ok_of_any
    (sentHeaders { plainAccount with accessId := "é", version := some "é" })
    (fun headers => decide ((sampleVerifier 300 plainAccount).precheck 0 { headers := headers } =
      .error .missingAccessId ∧ Http.Headers.text? headers sampleNames.version = none))
    (by decide +kernel)
  exact ⟨⟨headers, hheaders, of_decide_eq_true hrefused⟩, others, hothers,
    of_decide_eq_true hunread⟩

end Countersign.Verifier
