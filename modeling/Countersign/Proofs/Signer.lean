import Countersign.Proofs.Account.Signature
import Countersign.Proofs.Outcome
import Countersign.Proofs.Policy.HeaderNames
import Countersign.Proofs.Text.Decimal
import Countersign.Proofs.Verifier.Checks
import Countersign.Signer
import Mathlib.Data.List.Forall2

/-!
# What signing leaves behind

A signed request is the request as it was, except for the signature headers. A
receiver that reads those finds the id, the version, the time and the nonce that
were signed, and the signature.
-/

set_option autoImplicit false

namespace Countersign

/-- An account whose id and version can travel in headers. -/
structure Account.Presentable (a : Account) : Prop where
  named : a.accessId ≠ ""
  accessId : Http.IsReadableText a.accessId
  version : ∀ v, a.version = some v → Http.IsReadableText v

theorem alphanum_readable (c : Char) (h : c.isAlphanum = true) : Http.IsReadableChar c := by
  refine Or.inr ?_
  change 32 ≤ c.val.toNat ∧ c.val.toNat < 127
  change (decide ('A'.val ≤ c.val ∧ c.val ≤ 'Z'.val) ||
    (decide ('a'.val ≤ c.val) && decide (c.val ≤ 'z'.val)) ||
    (decide ('0'.val ≤ c.val) && decide (c.val ≤ '9'.val))) = true at h
  simp only [Bool.or_eq_true, Bool.and_eq_true, decide_eq_true_eq, UInt32.le_iff_toNat_le] at h
  change (65 ≤ c.val.toNat ∧ c.val.toNat ≤ 90 ∨ 97 ≤ c.val.toNat ∧ c.val.toNat ≤ 122) ∨
    48 ≤ c.val.toNat ∧ c.val.toNat ≤ 57 at h
  omega

theorem numeral_readable (c : Char) (h : Text.IsNumeral c) : Http.IsReadableChar c := by
  rcases h with h | rfl | rfl
  · exact alphanum_readable c (by simp [Char.isAlphanum, h])
  · decide
  · decide

theorem timestamp_readable (now : Millis) : Http.IsReadableText (Text.ofInt64 now) :=
  fun c hc => numeral_readable c (Text.int64_chars _ now (Text.int64_text now) c hc)

theorem nonce_readable (nonce : Nonce) : Http.IsReadableText nonce.text :=
  fun c hc => alphanum_readable c (nonce.isAlphanum_of_mem c hc)

theorem nonce_nonempty (nonce : Nonce) : nonce.text ≠ "" := by
  intro h
  have hlen := nonce.length_eq
  rw [h] at hlen
  cases hlen

namespace SignedHeaders

def texts (t : SignedHeaders) (n : HeaderNames) (version : Option String) :
    List (Http.HeaderName × String) :=
  (n.accessId, t.accessId) :: version.toList.map (n.version, ·) ++
    [(n.timestamp, t.timestamp), (n.nonce, t.nonce), (n.sign, t.signature)]

theorem texts_names (t : SignedHeaders) (n : HeaderNames) (version : Option String) :
    ((t.texts n version).map (·.1)).Sublist n.all := by
  cases version with
  | none => simp [texts, HeaderNames.all]
  | some v => simp [texts, HeaderNames.all]

theorem texts_no_version (t : SignedHeaders) {n : HeaderNames} (hd : n.all.Nodup) :
    n.version ∉ (t.texts n none).map (·.1) := by
  have hne : ∀ name ∈ [n.timestamp, n.nonce, n.sign], n.version ≠ name :=
    (List.pairwise_cons.mp (List.pairwise_cons.mp hd).2).1
  have hid : n.accessId ≠ n.version := (List.pairwise_cons.mp hd).1 n.version (by simp)
  intro hm
  rcases List.mem_cons.mp hm with h | h
  · exact hid h.symm
  · exact hne n.version h rfl

theorem texts_complete (t : SignedHeaders) (n : HeaderNames) (version : Option String)
    (name : Http.HeaderName) (hname : name ∈ n.all) (h : name = n.version → version ≠ none) :
    ∃ p ∈ t.texts n version, p.1 = name := by
  simp only [HeaderNames.all, List.mem_cons, List.not_mem_nil, or_false] at hname
  rcases hname with rfl | rfl | rfl | rfl | rfl
  · exact ⟨(n.accessId, t.accessId), by simp [texts], rfl⟩
  · obtain ⟨v, rfl⟩ := Option.ne_none_iff_exists'.mp (h rfl)
    exact ⟨(n.version, v), by simp [texts], rfl⟩
  · exact ⟨(n.timestamp, t.timestamp), by simp [texts], rfl⟩
  · exact ⟨(n.nonce, t.nonce), by simp [texts], rfl⟩
  · exact ⟨(n.sign, t.signature), by simp [texts], rfl⟩

end SignedHeaders

namespace Signer

def Wrote (p : Http.HeaderName × String) (q : Http.HeaderName × Http.HeaderValue) : Prop :=
  q.1 = p.1 ∧ headerValue p.2 = .ok q.2

theorem header_value_text (s : String) (v : Http.HeaderValue) (hs : Http.IsReadableText s)
    (h : headerValue s = .ok v) : v.text? = some s := by
  obtain ⟨w, hw, ht⟩ := Http.readable_round_trip s hs
  unfold headerValue at h
  rw [hw] at h
  cases h
  exact ht

theorem wrote_names {ps : List (Http.HeaderName × String)} {qs : Http.Headers}
    (h : List.Forall₂ Wrote ps qs) : qs.map (·.1) = ps.map (·.1) := by
  induction h with
  | nil => rfl
  | cons hp _ ih => simp [hp.1, ih]

theorem wrote_mem {ps : List (Http.HeaderName × String)} {qs : Http.Headers}
    (h : List.Forall₂ Wrote ps qs) (p : Http.HeaderName × String) (hp : p ∈ ps) :
    ∃ q ∈ qs, Wrote p q := by
  induction h with
  | nil => cases hp
  | cons hw _ ih =>
    rcases List.mem_cons.mp hp with rfl | hp
    · exact ⟨_, by simp, hw⟩
    · obtain ⟨q, hq, hw⟩ := ih hp
      exact ⟨q, by simp [hq], hw⟩

theorem text_of_value (h : Http.Headers) (name : Http.HeaderName) (s : String)
    (v : Http.HeaderValue) (hv : headerValue s = .ok v) (hvalues : h.values name = [v])
    (hs : Http.IsReadableText s) : h.text? name = some s := by
  rw [Http.Headers.text?, Http.Headers.get_eq_head, hvalues]
  exact header_value_text s v hs hv

theorem wrote_values {ps : List (Http.HeaderName × String)} {qs : Http.Headers}
    (h : List.Forall₂ Wrote ps qs) (hd : (ps.map (·.1)).Nodup) (p : Http.HeaderName × String)
    (hp : p ∈ ps) :
    ∃ v, headerValue p.2 = .ok v ∧ Http.Headers.values qs p.1 = [v] ∧
      ∀ before : Http.Headers,
        (qs.foldl (fun h q => h.insert q.1 q.2) before).values p.1 = [v] := by
  obtain ⟨q, hq, hname, hvalue⟩ := wrote_mem h p hp
  rw [← wrote_names h] at hd
  rw [← hname]
  exact ⟨q.2, hvalue, Http.Headers.values_single qs q.1 q.2 hd hq,
    fun before => Http.Headers.values_written qs before q.1 q.2 hd hq⟩

theorem wrote_text {ps : List (Http.HeaderName × String)} {qs : Http.Headers}
    (h : List.Forall₂ Wrote ps qs) (before : Http.Headers) (hd : (ps.map (·.1)).Nodup)
    (p : Http.HeaderName × String) (hp : p ∈ ps) (hr : Http.IsReadableText p.2) :
    Http.Headers.text? (qs.foldl (fun h q => h.insert q.1 q.2) before) p.1 = some p.2 := by
  obtain ⟨v, hv, _, hwritten⟩ := wrote_values h hd p hp
  exact text_of_value _ p.1 p.2 v hv (hwritten before) hr

theorem signed_headers_wrote (g : Signer) (now : Millis) (nonce : Nonce) (s : Signable)
    (account : Account) (written : Http.Headers)
    (h : g.signedHeaders now nonce s account = .ok written) :
    ∃ signature, account.sign (canonicalRequest now nonce s) = .ok signature ∧
      List.Forall₂ Wrote (SignedHeaders.texts
        ⟨account.accessId, Text.ofInt64 now, nonce.text, signature⟩ g.names account.version) written := by
  unfold signedHeaders at h
  obtain ⟨signature, hsign, h⟩ := (Outcome.bind_ok _ _ _).mp h
  obtain ⟨accessId, hid, h⟩ := (Outcome.bind_ok _ _ _).mp h
  refine ⟨signature, hsign, ?_⟩
  cases hv : account.version with
  | none =>
    simp only [hv, Outcome.bind_ok, Outcome.pure_ok] at h
    obtain ⟨_, rfl, timestamp, htime, number, hnonce, value, hvalue, rfl⟩ := h
    exact .cons ⟨rfl, hid⟩ (.cons ⟨rfl, htime⟩ (.cons ⟨rfl, hnonce⟩ (.cons ⟨rfl, hvalue⟩ .nil)))
  | some v =>
    simp only [hv, Outcome.bind_ok, Outcome.pure_ok] at h
    obtain ⟨version, hw, _, rfl, timestamp, htime, number, hnonce, value, hvalue, rfl⟩ := h
    exact .cons ⟨rfl, hid⟩ (.cons ⟨rfl, hw⟩
      (.cons ⟨rfl, htime⟩ (.cons ⟨rfl, hnonce⟩ (.cons ⟨rfl, hvalue⟩ .nil))))

/-- Signing writes the texts of the signature over the headers, and nothing else. -/
theorem sign_ok (g : Signer) (now : Millis) (nonce : Nonce) (r signed : Http.Request)
    (body : Bytes) (account : Account) (h : g.sign now nonce r body account = .ok signed) :
    ∃ signature written,
      account.sign (canonicalRequest now nonce (.ofRequest r body)) = .ok signature ∧
      List.Forall₂ Wrote (SignedHeaders.texts
        ⟨account.accessId, Text.ofInt64 now, nonce.text, signature⟩ g.names account.version) written ∧
      signed = { r with headers := written.foldl (fun h q => h.insert q.1 q.2) r.headers } := by
  unfold sign at h
  obtain ⟨written, hwritten, hsigned⟩ := (Outcome.bind_ok _ _ _).mp h
  obtain rfl := (Outcome.pure_ok _ _).mp hsigned
  obtain ⟨signature, hsign, hwrote⟩ := signed_headers_wrote g now nonce _ account written hwritten
  exact ⟨signature, written, hsign, hwrote, rfl⟩

theorem of_policy_names (p : Policy) (g : Signer) (h : ofPolicy p = .ok g) :
    p.headerNames = .ok g.names := by
  obtain ⟨names, hnames, hg⟩ := (Outcome.bind_ok _ _ _).mp h
  rw [← (Outcome.pure_ok _ _).mp hg]
  exact hnames

section Written

variable (p : Policy) (g : Signer) (hg : ofPolicy p = .ok g)

include hg

theorem texts_nodup (t : SignedHeaders) (version : Option String) :
    ((t.texts g.names version).map (·.1)).Nodup :=
  (HeaderNames.spelled_nodup (HeaderNames.of_stem_ok p.stem g.names
    (of_policy_names p g hg))).sublist (t.texts_names g.names version)

variable (now : Millis) (nonce : Nonce) (s : Signable) (account : Account)
  (headers : Http.Headers) (h : g.signedHeaders now nonce s account = .ok headers)

include h

/-- A name of a signature has one value in its headers, and that one alone once they are written. -/
theorem written_values (name : Http.HeaderName) (hname : name ∈ g.names.all)
    (hversion : name = g.names.version → account.version ≠ none) :
    ∃ v, headers.values name = [v] ∧ ∀ before : Http.Headers,
      (headers.foldl (fun h q => h.insert q.1 q.2) before).values name = [v] := by
  obtain ⟨signature, _, hwrote⟩ := signed_headers_wrote g now nonce s account headers h
  obtain ⟨q, hq, rfl⟩ := SignedHeaders.texts_complete
    ⟨account.accessId, Text.ofInt64 now, nonce.text, signature⟩ g.names account.version name hname
    hversion
  obtain ⟨v, _, hvalues, hwritten⟩ := wrote_values hwrote (texts_nodup p g hg _ _) q hq
  exact ⟨v, hvalues, hwritten⟩

theorem unwritten_values (name : Http.HeaderName)
    (hname : name ∉ g.names.all ∨ name = g.names.version ∧ account.version = none) :
    headers.values name = [] ∧ ∀ before : Http.Headers,
      (headers.foldl (fun h q => h.insert q.1 q.2) before).values name = before.values name := by
  obtain ⟨signature, _, hwrote⟩ := signed_headers_wrote g now nonce s account headers h
  have habsent : name ∉ headers.map (·.1) := by
    rw [wrote_names hwrote]
    rcases hname with hname | ⟨rfl, hnone⟩
    · exact fun hm => hname ((SignedHeaders.texts_names _ g.names account.version).subset hm)
    · rw [hnone]
      exact SignedHeaders.texts_no_version _ (HeaderNames.spelled_nodup
        (HeaderNames.of_stem_ok p.stem g.names (of_policy_names p g hg)))
  exact ⟨Http.Headers.values_absent headers name habsent,
    fun before => Http.Headers.values_written_other headers before name habsent⟩

end Written

theorem wrote_untouched {ps : List (Http.HeaderName × String)} {qs : Http.Headers}
    (h : List.Forall₂ Wrote ps qs) (before : Http.Headers) (name : Http.HeaderName)
    (hn : name ∉ ps.map (·.1)) :
    Http.Headers.text? (qs.foldl (fun h q => h.insert q.1 q.2) before) name =
      before.text? name := by
  rw [← wrote_names h] at hn
  rw [Http.Headers.text?, Http.Headers.text?, Http.Headers.get_eq_head, Http.Headers.get_eq_head,
    Http.Headers.values_written_other qs before name hn]

theorem read_from (account : Account) (now : Millis) (nonce : Nonce) (signature : String)
    (r : CanonicalRequest) (names : HeaderNames) (h : Http.Headers)
    (hsign : account.sign r = .ok signature)
    (reads : ∀ p ∈ SignedHeaders.texts ⟨account.accessId, Text.ofInt64 now, nonce.text, signature⟩
      names account.version, Http.IsReadableText p.2 → h.text? p.1 = some p.2)
    (hid : Http.IsReadableText account.accessId) :
    SignedHeaders.ReadFrom ⟨account.accessId, Text.ofInt64 now, nonce.text, signature⟩ names h := by
  obtain ⟨bytes, hbytes⟩ := Algorithm.sign_encoded _ _ _ _ hsign
  constructor
  · exact reads (names.accessId, account.accessId) (by simp [SignedHeaders.texts]) hid
  · exact reads (names.timestamp, _) (by simp [SignedHeaders.texts]) (timestamp_readable now)
  · exact reads (names.nonce, _) (by simp [SignedHeaders.texts]) (nonce_readable nonce)
  · exact reads (names.sign, _) (by simp [SignedHeaders.texts])
      (hbytes ▸ signature_readable bytes)

/-- A receiver finds the request as it was, with the texts of a signature over it. -/
theorem sign_read (p : Policy) (g : Signer) (hg : ofPolicy p = .ok g) (now : Millis)
    (nonce : Nonce) (r signed : Http.Request) (body : Bytes) (account : Account)
    (ha : account.Presentable)
    (hversion : account.version = none → r.headers.get? g.names.version = none)
    (h : g.sign now nonce r body account = .ok signed) :
    ∃ signature, account.sign (canonicalRequest now nonce (.ofRequest r body)) = .ok signature ∧
      signed.method = r.method ∧ signed.target = r.target ∧
      signed.contentType? = r.contentType? ∧
      signed.headers.text? g.names.version = account.version ∧
      SignedHeaders.ReadFrom ⟨account.accessId, Text.ofInt64 now, nonce.text, signature⟩ g.names
        signed.headers := by
  have hspelled := HeaderNames.of_stem_ok p.stem g.names (of_policy_names p g hg)
  obtain ⟨signature, written, hsign, hwrote, rfl⟩ := sign_ok g now nonce r signed body account h
  have hsub := SignedHeaders.texts_names
    ⟨account.accessId, Text.ofInt64 now, nonce.text, signature⟩ g.names account.version
  have reads := wrote_text hwrote r.headers (texts_nodup p g hg _ _)
  have hcontent : Http.contentTypeName ∉ _ :=
    fun hm => HeaderNames.spelled_content_type hspelled (hsub.subset hm)
  refine ⟨signature, hsign, rfl, rfl, wrote_untouched hwrote r.headers _ hcontent, ?_, ?_⟩
  · cases hv : account.version with
    | none =>
      rw [hv] at hwrote
      have hun := SignedHeaders.texts_no_version
        ⟨account.accessId, Text.ofInt64 now, nonce.text, signature⟩ (HeaderNames.spelled_nodup hspelled)
      rw [wrote_untouched hwrote r.headers _ hun, Http.Headers.text?, hversion hv]
      rfl
    | some v =>
      exact reads (g.names.version, v) (by simp [SignedHeaders.texts, hv]) (ha.version v hv)
  · exact read_from account now nonce signature _ g.names _ hsign reads ha.accessId

end Signer

end Countersign
