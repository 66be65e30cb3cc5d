import Countersign.Proofs.Policy.Stems
import Countersign.Proofs.Verifier.Acceptance
import Countersign.Proofs.Verifier.Signed

/-!
# Signers and verifiers with prefixes of their own

A verifier asks of a signer's policy nothing but the names of the headers. So the
prefix settles whom a signer and a verifier work with: those whose prefix is alike,
because they have the five names in common, while others look at none of the headers
that were written.
-/

set_option autoImplicit false

namespace Countersign

/-- A request that was signed reaches a verifier in time, which knows the account and has not seen
the nonce. -/
structure Delivers (g : Signer) (v : Verifier) (now later : Millis) (nonce : Nonce)
    (r signed : Http.Request) (body : Bytes) (account found : Account)
    (ledger : Option NonceLedger) : Prop where
  bare : ∀ name ∈ g.names.all, r.headers.get? name = none
  presentable : account.Presentable
  signs : g.sign now nonce r body account = .ok signed
  timely : (later.toInt - now.toInt).natAbs ≤ 1000 * v.policy.windowSecs.toNat
  known : v.resolver account.accessId account.version = .ok (some found)
  stands : found.StandsFor account
  fresh : ∀ l, ledger = some l → l.isLive (NonceLedger.key account.accessId nonce.text) = false

section Delivered

variable {g : Signer} {v : Verifier} {now later : Millis} {nonce : Nonce}
  {r signed : Http.Request} {body : Bytes} {account found : Account}
  {ledger : Option NonceLedger} {sending : Policy} (hg : Signer.ofPolicy sending = .ok g)
  (hnames : g.names = v.names)
  (h : Delivers g v now later nonce r signed body account found ledger)

include hg hnames h

theorem Delivers.accepts :
    signed.method = r.method ∧ signed.target = r.target ∧
      ∃ t, v.Accepts later ledger signed (some body) t found := by
  obtain ⟨signature, hsignature, hmethod, htarget, hcontent, hversion, hread⟩ :=
    Signer.sign_read sending g hg now nonce r signed body account h.presentable
      (fun _ => h.bare g.names.version (by simp [HeaderNames.all])) h.signs
  rw [hnames] at hread hversion
  let t : SignedHeaders := ⟨account.accessId, Text.ofInt64 now, nonce.text, signature⟩
  have hrequest : Verifier.arrived signed (some body) t =
      Signer.canonicalRequest now nonce (.ofRequest r body) := by
    rw [← Verifier.arrived_eq]
    simp only [Verifier.canonicalRequest, hmethod, htarget, hcontent]
    rfl
  refine ⟨hmethod, htarget, t, ?_⟩
  constructor
  · exact hread
  · exact h.presentable.named
  · exact Verifier.check_timestamp_now v.policy now later h.timely
  · exact nonce_nonempty nonce
  · rw [hversion]
    exact h.known
  · rw [hrequest]
    exact verify_signature found account _ signature h.stands hsignature
  · exact h.fresh

theorem Delivers.verdict : (v.verify later ledger signed (some body)).1 =
    if v.skips r.method r.target.path then .skipped else .verified found := by
  obtain ⟨hmethod, htarget, t, haccepts⟩ := h.accepts hg hnames
  have hexempt : v.skips r.method r.target.path = true ↔ v.Exempt signed := by
    rw [← Verifier.skips_iff, hmethod, htarget]
  by_cases hskip : v.skips r.method r.target.path = true
  · rw [if_pos hskip]
    exact (Verifier.skipped_iff v later ledger signed (some body)).mpr (hexempt.mp hskip)
  · rw [if_neg hskip]
    exact (Verifier.verified_iff v later ledger signed (some body) found).mpr
      ⟨fun hx => hskip (hexempt.mpr hx), t, haccepts⟩

end Delivered

/-- Signer and verifier can be built, and all that is delivered is taken: as verified, unless it
needs no signature. -/
def Interoperate (sending receiving : Policy) : Prop :=
  ∀ resolver, ∃ g v, Signer.ofPolicy sending = .ok g ∧
    Verifier.ofPolicy receiving resolver = .ok v ∧
    ∀ now later nonce r signed body account found ledger,
      Delivers g v now later nonce r signed body account found ledger →
        (v.verify later ledger signed (some body)).1 =
          if v.skips r.method r.target.path then .skipped else .verified found

theorem interoperate_of_names (sending receiving : Policy) (n : HeaderNames)
    (hs : sending.headerNames = .ok n) (hr : receiving.headerNames = .ok n) :
    Interoperate sending receiving := by
  intro resolver
  have hg : Signer.ofPolicy sending = .ok ⟨n⟩ := by
    rw [Signer.ofPolicy, hs]
    rfl
  refine ⟨⟨n⟩, ⟨receiving, n, resolver⟩, hg, ?_, ?_⟩
  · rw [Verifier.ofPolicy, hr]
    rfl
  · intro now later nonce r signed body account found ledger h
    exact h.verdict hg rfl

namespace HeaderNames

/-- What is left of a prefix without the hyphens at its end settles everything: whether there are
names, how they are spelled, and which other prefixes have them, all five or none. -/
theorem stem_decides (p : String) : ∃ s, Trimmed p s ∧
    ((∃ n, ofStem p = .ok n) ↔ Fits s) ∧
    (¬ Fits s → ofStem p = .error (.configuration
      ("invalid header prefix '" ++ String.ofList s ++ "': invalid HTTP header name"))) ∧
    ∀ n, ofStem p = .ok n →
      n.all.Nodup ∧ Spelled n (s.map Char.toLower) ∧
      (∀ name ∈ n.all, ∀ c ∈ name.text.toList, c.isUpper = false) ∧
      ∀ q, (ofStem q = .ok n ↔ Alike p q) ∧
        (Alike p q → ∀ sending receiving : Policy,
          Interoperate { sending with stem := p } { receiving with stem := q }) ∧
        (¬ Alike p q → ∀ m, ofStem q = .ok m → ∀ name ∈ n.all, name ∉ m.all) := by
  refine ⟨(stem p).toList, trimmed_stem p, of_stem_ok_iff p, ?_, ?_⟩
  · rw [String.ofList_toList]
    exact of_stem_error p
  · intro n hp
    have hspelled := of_stem_ok p n hp
    refine ⟨spelled_nodup hspelled, hspelled, fun name _ => name_lower name, fun q => ?_⟩
    refine ⟨of_stem_alike hp q, ?_, fun h m hq => of_stem_apart hp hq h⟩
    intro h sending receiving
    exact interoperate_of_names _ _ n hp ((of_stem_alike hp q).mpr h)

theorem stem_decides_spelling :
    (∃ signed, Signer.sign ⟨Verifier.sampleNames⟩ 0 Verifier.sampleNonce Verifier.sampleRequest
        Verifier.sampleBody Verifier.sampleAccount = .ok signed ∧
      (Verifier.verify ⟨{ stem := "x-keystamp--" }, Verifier.sampleNames,
        (Directory.ofList [Verifier.sampleAccount]).resolver⟩ 300000 (some {}) signed
        (some Verifier.sampleBody)).1 = .verified Verifier.sampleAccount) ∧
    ∃ names, ofStem "X-Ca" = .ok names ∧ ∀ name ∈ Verifier.sampleNames.all, name ∉ names.all := by
  obtain ⟨_, _, _, _, hmade⟩ := stem_decides defaultStem
  obtain ⟨_, _, _, hothers⟩ := hmade Verifier.sampleNames Verifier.sample_names
  have halike : Alike defaultStem "x-keystamp--" := ⟨"X-Keystamp".toList, "x-keystamp".toList,
    ⟨⟨0, by decide⟩, by decide⟩, ⟨⟨2, by decide⟩, by decide⟩, by decide⟩
  have hapart : ¬ Alike defaultStem "X-Ca" := by
    rw [alike_iff]
    decide
  have hfits : Fits (stem "X-Ca").toList := by
    rw [show (stem "X-Ca").toList = "X-Ca".toList by decide]
    exact ⟨List.all_eq_true.mp (by decide), by decide⟩
  obtain ⟨names, hnames⟩ := (of_stem_ok_iff "X-Ca").mpr hfits
  refine ⟨?_, names, hnames, (hothers "X-Ca").2.2 hapart names hnames⟩
  obtain ⟨⟨written⟩, ⟨policy, read, resolver⟩, hg, hv, hverdict⟩ :=
    (hothers "x-keystamp--").2.1 halike {} {} (Directory.ofList [Verifier.sampleAccount]).resolver
  obtain rfl : written = Verifier.sampleNames :=
    Except.ok.inj ((Signer.of_policy_names _ _ hg).symm.trans Verifier.sample_names)
  obtain ⟨hread, rfl, rfl⟩ := Verifier.of_policy_fields _ _ _ hv
  obtain rfl : read = Verifier.sampleNames :=
    Except.ok.inj (hread.symm.trans ((hothers "x-keystamp--").1.mpr halike))
  obtain ⟨signed, hsigned, _⟩ := Outcome.ok_of_any (Signer.sign ⟨Verifier.sampleNames⟩ 0
    Verifier.sampleNonce Verifier.sampleRequest Verifier.sampleBody Verifier.sampleAccount)
    (fun _ => true) (Option.any_true.trans Verifier.sample_signs)
  refine ⟨signed, hsigned, ?_⟩
  rw [hverdict 0 300000 Verifier.sampleNonce Verifier.sampleRequest signed Verifier.sampleBody
    Verifier.sampleAccount Verifier.sampleAccount (some {}), if_neg (by decide +kernel)]
  constructor
  · decide +kernel
  · exact Verifier.sample_presentable
  · exact hsigned
  · decide
  · decide +kernel
  · exact ⟨rfl, Or.inl rfl⟩
  · rintro l ⟨⟩
    rfl

end HeaderNames

end Countersign
