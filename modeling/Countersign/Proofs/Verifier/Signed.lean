import Countersign.Proofs.Signer
import Countersign.Proofs.Verifier.Checks

/-!
# Signed requests are verified

A verifier of the same policy rebuilds from a signed request the canonical
request that was signed: it reads back the texts of id, version, time and nonce,
and finds method, target, content type and body as they were. So it accepts the
signature of every key that matches, for as long as the timestamp is in the
window and the nonce has not been seen.
-/

set_option autoImplicit false

namespace Countersign

def Account.StandsFor (found account : Account) : Prop :=
  found.algorithm = account.algorithm ∧ found.key.Verifies account.key

theorem verify_signature (found account : Account) (r : CanonicalRequest) (signature : String)
    (hf : found.StandsFor account) (h : account.sign r = .ok signature) :
    found.verify r signature = .ok true := by
  rw [Account.verify, hf.1]
  exact Algorithm.sign_verify _ r _ _ signature hf.2 h

namespace Verifier

theorem of_policy_fields (p : Policy) (resolver : Resolver) (v : Verifier)
    (h : ofPolicy p resolver = .ok v) :
    p.headerNames = .ok v.names ∧ v.policy = p ∧ v.resolver = resolver := by
  obtain ⟨names, hnames, hv⟩ := (Outcome.bind_ok _ _ _).mp h
  rw [← (Outcome.pure_ok _ _).mp hv]
  exact ⟨hnames, rfl, rfl⟩

theorem check_timestamp_now (p : Policy) (now later : Millis)
    (h : (later.toInt - now.toInt).natAbs ≤ 1000 * p.windowSecs.toNat) :
    checkTimestamp p.window later (Text.ofInt64 now) = .ok () := by
  rw [check_timestamp_ok]
  exact ⟨now, Text.trimmed_text now, (skew_le p.windowSecs later now).mpr (Or.inl h)⟩

theorem fresh_nonce (v : Verifier) (ledger : Option NonceLedger) (t : SignedHeaders)
    (h : ∀ l, ledger = some l → l.isLive (NonceLedger.key t.accessId t.nonce) = false) :
    (v.recordNonce ledger t).1 = true := by
  cases ledger with
  | none => rfl
  | some l => simp [recordNonce, NonceLedger.checkAndRecord, h l rfl]

/-- What a signer leaves behind is verified as the account that the resolver finds, unless the
request needs no signature. -/
theorem verified_of_signed (p : Policy) (resolver : Resolver) (g : Signer) (v : Verifier)
    (hg : Signer.ofPolicy p = .ok g) (hv : ofPolicy p resolver = .ok v)
    (now later : Millis) (nonce : Nonce) (r signed : Http.Request) (body : Bytes)
    (account found : Account) (ledger : Option NonceLedger)
    (hbare : ∀ name ∈ g.names.all, r.headers.get? name = none)
    (haccount : account.Presentable)
    (hsign : g.sign now nonce r body account = .ok signed)
    (hwindow : (later.toInt - now.toInt).natAbs ≤ 1000 * p.windowSecs.toNat)
    (hfound : resolver account.accessId account.version = .ok (some found))
    (hstands : found.StandsFor account)
    (hfresh : ∀ l, ledger = some l →
      l.isLive (NonceLedger.key account.accessId nonce.text) = false) :
    (v.verify later ledger signed (some body)).1 =
      if v.skips r.method r.target.path then .skipped else .verified found := by
  obtain ⟨hnames, hpolicy, hresolver⟩ := of_policy_fields p resolver v hv
  obtain ⟨signature, hsignature, hmethod, htarget, hcontent, hversion, hread⟩ :=
    Signer.sign_read p g hg now nonce r signed body account haccount
      (fun _ => hbare g.names.version (by simp [HeaderNames.all])) hsign
  have hsame : g.names = v.names :=
    Except.ok.inj ((Signer.of_policy_names p g hg).symm.trans hnames)
  rw [hsame] at hread hversion
  have hrequest : canonicalRequest signed (some body)
      ⟨account.accessId, Text.ofInt64 now, nonce.text, signature⟩ =
      Signer.canonicalRequest now nonce (.ofRequest r body) := by
    simp only [canonicalRequest, hmethod, htarget, hcontent]
    rfl
  by_cases hskip : v.skips r.method r.target.path = true
  · rw [if_pos hskip, verify, hmethod, htarget, if_pos hskip]
  have hread' : v.signedHeaders later signed.headers =
      .ok ⟨account.accessId, Text.ofInt64 now, nonce.text, signature⟩ := by
    rw [signed_headers_ok, hpolicy]
    exact ⟨hread, haccount.named, nonce_nonempty nonce, check_timestamp_now p now later hwindow⟩
  have hauthentic : v.authenticate signed (some body)
      ⟨account.accessId, Text.ofInt64 now, nonce.text, signature⟩ = .ok found := by
    rw [authenticate_ok, hresolver, hversion, hrequest]
    exact ⟨hfound, verify_signature found account _ signature hstands hsignature⟩
  have hunskipped : v.skips signed.method signed.target.path = false := by
    rw [hmethod, htarget]
    exact Bool.eq_false_iff.mpr hskip
  have hverify := (verify_verified v later ledger _ signed (some body) found).mpr
    ⟨hunskipped, _, hread', hauthentic, Prod.ext (fresh_nonce v ledger _ hfresh) rfl⟩
  rw [if_neg hskip, hverify]

def sampleAccount : Account := ⟨"app", some "2", .secret "key", .hmacSha256⟩

def plainAccount : Account := { sampleAccount with version := none }

def sampleNonce : Nonce := ⟨"0123456789abcdef0123456789ABCDEF", by decide, by
    rw [← List.all_eq_true]
    decide⟩

def sampleBody : Bytes := Utf8.ofString "[1]"

def sampleRequest : Http.Request :=
  { headers := [(Http.contentTypeName, ⟨Utf8.ofString "application/json", by decide⟩)] }

def sampleNames : HeaderNames :=
  ⟨⟨"x-keystamp-accessid", by decide⟩, ⟨"x-keystamp-secretversion", by decide⟩,
    ⟨"x-keystamp-timestamp", by decide⟩, ⟨"x-keystamp-nonce", by decide⟩,
    ⟨"x-keystamp-sign", by decide⟩⟩

theorem zero_value : (Utf8.ofString "0").all Http.isValueByte = true := by decide

theorem sample_nonce_value : (Utf8.ofString sampleNonce.text).all Http.isValueByte = true := by
  decide

def sampleVerifier (secs : UInt64) (account : Account) : Verifier :=
  ⟨{ windowSecs := secs }, sampleNames, (Directory.ofList [account]).resolver⟩

theorem sample_names : ({} : Policy).headerNames = .ok sampleNames := by decide +kernel

theorem sample_signer : Signer.ofPolicy {} = .ok ⟨sampleNames⟩ := by
  rw [Signer.ofPolicy, sample_names]
  rfl

theorem sample_presentable : sampleAccount.Presentable := by
  unfold sampleAccount
  constructor
  · decide
  · decide
  · rintro v ⟨⟩
    decide

theorem sample_signs : ((⟨sampleNames⟩ : Signer).sign 0 sampleNonce sampleRequest sampleBody
    sampleAccount).toOption.isSome = true := by
  decide +kernel

theorem verified_of_signed_after_window : ∃ signed,
    Signer.sign ⟨sampleNames⟩ 0 sampleNonce sampleRequest sampleBody sampleAccount = .ok signed ∧
      ((sampleVerifier 300 sampleAccount).verify 300000 (some {}) signed (some sampleBody)).1 =
        .verified sampleAccount := by
  have hsigner : Signer.ofPolicy {} = .ok ⟨sampleNames⟩ := by
    rw [Signer.ofPolicy, sample_names]
    rfl
  have hverifier : ofPolicy {} (Directory.ofList [sampleAccount]).resolver =
      .ok (sampleVerifier 300 sampleAccount) := by
    rw [ofPolicy, sample_names]
    rfl
  have hbare : ∀ name ∈ sampleNames.all, sampleRequest.headers.get? name = none := by
    decide +kernel
  have hfound : (Directory.ofList [sampleAccount]).resolver sampleAccount.accessId
      sampleAccount.version = .ok (some sampleAccount) := by decide +kernel
  cases hsign : Signer.sign ⟨sampleNames⟩ 0 sampleNonce sampleRequest sampleBody sampleAccount with
  | error e =>
    have hsigns := sample_signs
    rw [hsign] at hsigns
    cases hsigns
  | ok signed =>
    refine ⟨signed, rfl, ?_⟩
    have hverified := verified_of_signed {} _ _ _ hsigner hverifier 0 300000 sampleNonce
      sampleRequest signed sampleBody sampleAccount sampleAccount (some {}) hbare
      sample_presentable hsign (by decide) hfound ⟨rfl, Or.inl rfl⟩ (by rintro l ⟨⟩; rfl)
    rw [if_neg (by decide +kernel)] at hverified
    exact hverified

end Verifier

end Countersign
