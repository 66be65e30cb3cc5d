import Countersign.Proofs.Verifier.Checks

/-!
# Which requests a verifier accepts

A verifier makes its checks in a fixed order. Each check looks at what has
arrived and not at the other checks, so that the verdict can be read off without
running the verifier: a request is verified when every check passes, and otherwise
the first check that does not pass says why. Only a wrong signature is explained,
and only outside production.
-/

set_option autoImplicit false

namespace Countersign.Verifier

def Exempt (v : Verifier) (r : Http.Request) : Prop :=
  r.method.text = "OPTIONS" ∨
    ∃ pattern ∈ v.policy.allowPaths, AllowList.pathMatches pattern r.target.path = true

/-- The canonical request of what has arrived. The body is in it only when its type is signed. -/
def arrived (r : Http.Request) (body : Option Bytes) (t : SignedHeaders) : CanonicalRequest :=
  .of r.method.text r.target.path t.nonce t.timestamp r.target.query
    (if requiresBody r then body.map Utf8.toStringLossy else none)

inductive Check where
  | accessId
  | timestamp
  | age
  | nonce
  | signature
  | account
  | genuineness
  | freshness
deriving DecidableEq, Repr

def Check.inOrder : List Check :=
  [accessId, timestamp, age, nonce, signature, account, genuineness, freshness]

variable (v : Verifier) (now : Millis) (ledger : Option NonceLedger) (r : Http.Request)
  (body : Option Bytes)

def explanation (t : SignedHeaders) (a : Account) : Echo :=
  ⟨a.algorithm.canonicalText (arrived r body t), (arrived r body t).query.getD ""⟩

def explained (t : SignedHeaders) (a : Account) : Option Echo :=
  if v.policy.production then none else some (explanation r body t a)

/-- What has to be seen for a check to refuse a request, and the cause it gives. -/
inductive Refuses : Check → Refusal → Prop where
  | unnamed (h : ∀ id, r.headers.text? v.names.accessId = some id → id = "") :
      Refuses .accessId .missingAccessId
  | untimed (h : r.headers.text? v.names.timestamp = none) : Refuses .timestamp .missingTimestamp
  | untimely (timestamp : String) (why : Refusal)
      (h : r.headers.text? v.names.timestamp = some timestamp)
      (hcheck : checkTimestamp v.policy.window now timestamp = .error why) : Refuses .age why
  | unmarked (h : ∀ nonce, r.headers.text? v.names.nonce = some nonce → nonce = "") :
      Refuses .nonce .missingNonce
  | unsigned (h : r.headers.text? v.names.sign = none) : Refuses .signature .missingSignature
  | unresolved (id : String) (e : SignatureError) (h : r.headers.text? v.names.accessId = some id)
      (hfound : v.resolver id (r.headers.text? v.names.version) = .error e) :
      Refuses .account (.lookupFailed id e)
  | unknown (id : String) (h : r.headers.text? v.names.accessId = some id)
      (hfound : v.resolver id (r.headers.text? v.names.version) = .ok none) :
      Refuses .account (.unknownAccount id)
  | forged (t : SignedHeaders) (a : Account) (h : t.ReadFrom v.names r.headers)
      (hfound : v.resolver t.accessId (r.headers.text? v.names.version) = .ok (some a))
      (hverify : a.verify (arrived r body t) t.signature = .ok false) :
      Refuses .genuineness (.mismatch t.accessId none (explained v r body t a))
  | unverifiable (t : SignedHeaders) (a : Account) (e : SignatureError)
      (h : t.ReadFrom v.names r.headers)
      (hfound : v.resolver t.accessId (r.headers.text? v.names.version) = .ok (some a))
      (hverify : a.verify (arrived r body t) t.signature = .error e) :
      Refuses .genuineness (.mismatch t.accessId (some e) (explained v r body t a))
  | stale (t : SignedHeaders) (l : NonceLedger) (h : t.ReadFrom v.names r.headers)
      (hledger : ledger = some l) (hlive : l.isLive (NonceLedger.key t.accessId t.nonce) = true) :
      Refuses .freshness (.replayed t.accessId)

def Passes (c : Check) : Prop := ∀ why, ¬ Refuses v now ledger r body c why

def FirstRefusal (c : Check) (why : Refusal) : Prop :=
  Refuses v now ledger r body c why ∧
    ∃ before after, Check.inOrder = before ++ c :: after ∧ ∀ d ∈ before, Passes v now ledger r body d

/-- What makes a request an account's own: every condition on its own. -/
structure Accepts (t : SignedHeaders) (a : Account) : Prop where
  read : t.ReadFrom v.names r.headers
  named : t.accessId ≠ ""
  timely : checkTimestamp v.policy.window now t.timestamp = .ok ()
  marked : t.nonce ≠ ""
  known : v.resolver t.accessId (r.headers.text? v.names.version) = .ok (some a)
  genuine : a.verify (arrived r body t) t.signature = .ok true
  fresh : ∀ l, ledger = some l → l.isLive (NonceLedger.key t.accessId t.nonce) = false

theorem skips_iff : v.skips r.method r.target.path = true ↔ v.Exempt r := by
  rw [skips, Bool.or_eq_true, beq_iff_eq, Policy.allows, AllowList.allows, List.any_eq_true]
  exact Iff.rfl

theorem arrived_eq (t : SignedHeaders) : canonicalRequest r body t = arrived r body t := by
  have hbody : body.bind (Body.signedText r.contentType?) =
      if requiresBody r then body.map Utf8.toStringLossy else none := by
    cases body with
    | none => simp
    | some b => rfl
  rw [canonicalRequest, hbody, arrived]

theorem read_unique (t u : SignedHeaders) (n : HeaderNames) (h : Http.Headers)
    (ht : t.ReadFrom n h) (hu : u.ReadFrom n h) : t = u := by
  have hid := Option.some.inj (ht.accessId.symm.trans hu.accessId)
  have htime := Option.some.inj (ht.timestamp.symm.trans hu.timestamp)
  have hnonce := Option.some.inj (ht.nonce.symm.trans hu.nonce)
  have hsign := Option.some.inj (ht.signature.symm.trans hu.signature)
  cases t
  cases u
  simp only at hid htime hnonce hsign
  rw [hid, htime, hnonce, hsign]

theorem found_unique (t u : SignedHeaders) (a b : Account) (ht : t.ReadFrom v.names r.headers)
    (hu : u.ReadFrom v.names r.headers)
    (ha : v.resolver t.accessId (r.headers.text? v.names.version) = .ok (some a))
    (hb : v.resolver u.accessId (r.headers.text? v.names.version) = .ok (some b)) :
    t = u ∧ a = b := by
  have htu := read_unique t u _ _ ht hu
  rw [htu] at ha
  exact ⟨htu, Option.some.inj (Except.ok.inj (ha.symm.trans hb))⟩

theorem require_error (why e : Refusal) (o : Option String) :
    require why o = .error e ↔ o = none ∧ why = e := by
  cases o <;> simp [require]

theorem filter_empty (o : Option String) :
    o.filter (· ≠ "") = none ↔ ∀ s, o = some s → s = "" := by
  rw [Option.filter_eq_none_iff]
  simp

theorem named_passes (id : String) (h : r.headers.text? v.names.accessId = some id) (hid : id ≠ "") :
    Passes v now ledger r body .accessId := by
  intro why hw
  cases hw with
  | unnamed hu => exact hid (hu id h)

theorem timed_passes (timestamp : String)
    (h : r.headers.text? v.names.timestamp = some timestamp) :
    Passes v now ledger r body .timestamp := by
  intro why hw
  cases hw with
  | untimed hu => exact absurd (h.symm.trans hu) (by simp)

theorem timely_passes (timestamp : String)
    (h : r.headers.text? v.names.timestamp = some timestamp)
    (hcheck : checkTimestamp v.policy.window now timestamp = .ok ()) :
    Passes v now ledger r body .age := by
  intro why hw
  cases hw with
  | untimely other _ ho herror =>
    obtain rfl := Option.some.inj (h.symm.trans ho)
    exact absurd (hcheck.symm.trans herror) (by simp)

theorem marked_passes (nonce : String) (h : r.headers.text? v.names.nonce = some nonce)
    (hnonce : nonce ≠ "") : Passes v now ledger r body .nonce := by
  intro why hw
  cases hw with
  | unmarked hu => exact hnonce (hu nonce h)

theorem signed_passes (signature : String) (h : r.headers.text? v.names.sign = some signature) :
    Passes v now ledger r body .signature := by
  intro why hw
  cases hw with
  | unsigned hu => exact absurd (h.symm.trans hu) (by simp)

theorem known_passes (id : String) (a : Account)
    (h : r.headers.text? v.names.accessId = some id)
    (hfound : v.resolver id (r.headers.text? v.names.version) = .ok (some a)) :
    Passes v now ledger r body .account := by
  intro why hw
  cases hw with
  | unresolved other e ho he =>
    obtain rfl := Option.some.inj (h.symm.trans ho)
    exact absurd (hfound.symm.trans he) (by simp)
  | unknown other ho hnone =>
    obtain rfl := Option.some.inj (h.symm.trans ho)
    exact absurd (hfound.symm.trans hnone) (by simp)

theorem genuine_passes (t : SignedHeaders) (a : Account) (h : t.ReadFrom v.names r.headers)
    (hfound : v.resolver t.accessId (r.headers.text? v.names.version) = .ok (some a))
    (hverify : a.verify (arrived r body t) t.signature = .ok true) :
    Passes v now ledger r body .genuineness := by
  intro why hw
  cases hw with
  | forged u b hu hb hfalse =>
    obtain ⟨rfl, rfl⟩ := found_unique v r t u a b h hu hfound hb
    exact absurd (hverify.symm.trans hfalse) (by simp)
  | unverifiable u b e hu hb herror =>
    obtain ⟨rfl, rfl⟩ := found_unique v r t u a b h hu hfound hb
    exact absurd (hverify.symm.trans herror) (by simp)

theorem fresh_passes (t : SignedHeaders) (h : t.ReadFrom v.names r.headers)
    (hfresh : ∀ l, ledger = some l → l.isLive (NonceLedger.key t.accessId t.nonce) = false) :
    Passes v now ledger r body .freshness := by
  intro why hw
  cases hw with
  | stale u l hu hl hlive =>
    obtain rfl := read_unique t u _ _ h hu
    exact absurd ((hfresh l hl).symm.trans hlive) (by simp)

theorem headers_pass (t : SignedHeaders) (h : v.signedHeaders now r.headers = .ok t) :
    ∀ d ∈ [Check.accessId, .timestamp, .age, .nonce, .signature], Passes v now ledger r body d := by
  obtain ⟨hr, hid, hn, hcheck⟩ := (signed_headers_ok v now r.headers t).mp h
  simp only [List.forall_mem_cons, List.not_mem_nil, false_implies, implies_true, and_true]
  exact ⟨named_passes v now ledger r body _ hr.accessId hid,
    timed_passes v now ledger r body _ hr.timestamp,
    timely_passes v now ledger r body _ hr.timestamp hcheck,
    marked_passes v now ledger r body _ hr.nonce hn,
    signed_passes v now ledger r body _ hr.signature⟩

theorem accepts_passes (t : SignedHeaders) (a : Account) (h : Accepts v now ledger r body t a)
    (c : Check) : Passes v now ledger r body c := by
  have hread : v.signedHeaders now r.headers = .ok t :=
    (signed_headers_ok v now r.headers t).mpr ⟨h.read, h.named, h.marked, h.timely⟩
  have hheaders := headers_pass v now ledger r body t hread
  cases c with
  | account => exact known_passes v now ledger r body _ a h.read.accessId h.known
  | genuineness => exact genuine_passes v now ledger r body t a h.read h.known h.genuine
  | freshness => exact fresh_passes v now ledger r body t h.read h.fresh
  | _ => exact hheaders _ (by simp)

theorem refuses_unique (c : Check) (why other : Refusal) (h : Refuses v now ledger r body c why)
    (ho : Refuses v now ledger r body c other) : why = other := by
  cases h with
  | unnamed => cases ho; rfl
  | untimed => cases ho; rfl
  | untimely s _ hs hcheck =>
    cases ho with
    | untimely u _ hu hother =>
      obtain rfl := Option.some.inj (hs.symm.trans hu)
      exact Except.error.inj (hcheck.symm.trans hother)
  | unmarked => cases ho; rfl
  | unsigned => cases ho; rfl
  | unresolved id e hid he =>
    cases ho with
    | unresolved other d ho hd =>
      obtain rfl := Option.some.inj (hid.symm.trans ho)
      obtain rfl := Except.error.inj (he.symm.trans hd)
      rfl
    | unknown other ho hnone =>
      obtain rfl := Option.some.inj (hid.symm.trans ho)
      exact absurd (he.symm.trans hnone) (by simp)
  | unknown id hid hnone =>
    cases ho with
    | unresolved other d ho hd =>
      obtain rfl := Option.some.inj (hid.symm.trans ho)
      exact absurd (hnone.symm.trans hd) (by simp)
    | unknown other ho _ =>
      obtain rfl := Option.some.inj (hid.symm.trans ho)
      rfl
  | forged t a hr ha hverify =>
    cases ho with
    | forged u b hu hb _ =>
      obtain ⟨rfl, rfl⟩ := found_unique v r t u a b hr hu ha hb
      rfl
    | unverifiable u b e hu hb herror =>
      obtain ⟨rfl, rfl⟩ := found_unique v r t u a b hr hu ha hb
      exact absurd (hverify.symm.trans herror) (by simp)
  | unverifiable t a e hr ha hverify =>
    cases ho with
    | forged u b hu hb hfalse =>
      obtain ⟨rfl, rfl⟩ := found_unique v r t u a b hr hu ha hb
      exact absurd (hverify.symm.trans hfalse) (by simp)
    | unverifiable u b d hu hb herror =>
      obtain ⟨rfl, rfl⟩ := found_unique v r t u a b hr hu ha hb
      obtain rfl := Except.error.inj (hverify.symm.trans herror)
      rfl
  | stale t l hr hl _ =>
    cases ho with
    | stale u m hu _ _ =>
      obtain rfl := read_unique t u _ _ hr hu
      rfl

theorem first_unique (c d : Check) (why other : Refusal)
    (h : FirstRefusal v now ledger r body c why) (ho : FirstRefusal v now ledger r body d other) :
    why = other := by
  obtain ⟨hw, before, after, hsplit, hpass⟩ := h
  obtain ⟨hw', before', after', hsplit', hpass'⟩ := ho
  rcases List.append_eq_append_iff.mp (hsplit.symm.trans hsplit') with ⟨x, hx, hc⟩ | ⟨x, hx, hc⟩
  · cases x with
    | nil =>
      obtain ⟨rfl, _⟩ := List.cons.inj hc
      exact refuses_unique v now ledger r body c why other hw hw'
    | cons e x =>
      obtain ⟨rfl, _⟩ := List.cons.inj hc
      exact absurd hw (hpass' c (by simp [hx]) why)
  · cases x with
    | nil =>
      obtain ⟨rfl, _⟩ := List.cons.inj hc
      exact refuses_unique v now ledger r body d why other hw hw'
    | cons e x =>
      obtain ⟨rfl, _⟩ := List.cons.inj hc
      exact absurd hw' (hpass d (by simp [hx]) other)

theorem headers_refuse (why : Refusal) (h : v.signedHeaders now r.headers = .error why) :
    ∃ c, FirstRefusal v now ledger r body c why := by
  unfold signedHeaders at h
  rcases (Outcome.bind_error _ _ _).mp h with hid | ⟨id, hid, h⟩
  · obtain ⟨hnone, rfl⟩ := (require_error _ _ _).mp hid
    exact ⟨.accessId, .unnamed ((filter_empty _).mp hnone), [], _, rfl, by simp⟩
  obtain ⟨hne, hid⟩ := (filter_nonempty _ _).mp ((require_ok _ _ _).mp hid)
  have hnamed := named_passes v now ledger r body id hid hne
  rcases (Outcome.bind_error _ _ _).mp h with htime | ⟨timestamp, htime, h⟩
  · obtain ⟨hnone, rfl⟩ := (require_error _ _ _).mp htime
    exact ⟨.timestamp, .untimed hnone, [.accessId], _, rfl, by simpa using hnamed⟩
  rw [require_ok] at htime
  have htimed := timed_passes v now ledger r body timestamp htime
  rcases (Outcome.bind_error _ _ _).mp h with hage | ⟨_, hage, h⟩
  · exact ⟨.age, .untimely timestamp why htime hage, [.accessId, .timestamp], _, rfl,
      by simpa using ⟨hnamed, htimed⟩⟩
  have htimely := timely_passes v now ledger r body timestamp htime hage
  rcases (Outcome.bind_error _ _ _).mp h with hnonce | ⟨nonce, hnonce, h⟩
  · obtain ⟨hnone, rfl⟩ := (require_error _ _ _).mp hnonce
    exact ⟨.nonce, .unmarked ((filter_empty _).mp hnone), [.accessId, .timestamp, .age], _, rfl,
      by simpa using ⟨hnamed, htimed, htimely⟩⟩
  obtain ⟨hne', hnonce⟩ := (filter_nonempty _ _).mp ((require_ok _ _ _).mp hnonce)
  have hmarked := marked_passes v now ledger r body nonce hnonce hne'
  rcases (Outcome.bind_error _ _ _).mp h with hsign | ⟨signature, _, h⟩
  · obtain ⟨hnone, rfl⟩ := (require_error _ _ _).mp hsign
    exact ⟨.signature, .unsigned hnone, [.accessId, .timestamp, .age, .nonce], _, rfl,
      by simpa using ⟨hnamed, htimed, htimely, hmarked⟩⟩
  · cases h

theorem account_refuses (t : SignedHeaders) (why : Refusal)
    (ht : v.signedHeaders now r.headers = .ok t) (h : v.authenticate r body t = .error why) :
    ∃ c, FirstRefusal v now ledger r body c why := by
  have hheaders := headers_pass v now ledger r body t ht
  obtain ⟨hr, _, _, _⟩ := (signed_headers_ok v now r.headers t).mp ht
  simp only [authenticate, arrived_eq] at h
  cases hfound : v.resolver t.accessId (r.headers.text? v.names.version) with
  | error e =>
    rw [hfound] at h
    cases h
    exact ⟨.account, .unresolved _ e hr.accessId hfound, _, _, rfl, hheaders⟩
  | ok found =>
    cases found with
    | none =>
      rw [hfound] at h
      cases h
      exact ⟨.account, .unknown _ hr.accessId hfound, _, _, rfl, hheaders⟩
    | some a =>
      rw [hfound] at h
      have hknown := known_passes v now ledger r body _ a hr.accessId hfound
      have hbefore : ∀ d ∈ [Check.accessId, .timestamp, .age, .nonce, .signature] ++ [.account],
          Passes v now ledger r body d := by
        rw [List.forall_mem_append]
        exact ⟨hheaders, by simpa using hknown⟩
      cases hverify : a.verify (arrived r body t) t.signature with
      | error e =>
        simp only [hverify] at h
        cases h
        exact ⟨.genuineness, .unverifiable t a e hr hfound hverify, _, _, rfl, hbefore⟩
      | ok valid =>
        cases valid with
        | false =>
          simp only [hverify] at h
          cases h
          exact ⟨.genuineness, .forged t a hr hfound hverify, _, _, rfl, hbefore⟩
        | true =>
          simp only [hverify] at h
          cases h

theorem record_some (t : SignedHeaders) (l : NonceLedger) :
    (v.recordNonce (some l) t).1 = !l.isLive (NonceLedger.key t.accessId t.nonce) := by
  by_cases hl : l.isLive (NonceLedger.key t.accessId t.nonce) = true
  · simp [recordNonce, NonceLedger.checkAndRecord, hl]
  · simp [recordNonce, NonceLedger.checkAndRecord, hl]

theorem record_fresh (t : SignedHeaders) :
    (v.recordNonce ledger t).1 = true ↔
      ∀ l, ledger = some l → l.isLive (NonceLedger.key t.accessId t.nonce) = false := by
  cases ledger with
  | none => simp [recordNonce]
  | some l => simp [record_some]

theorem nonce_refuses (t : SignedHeaders) (a : Account)
    (ht : v.signedHeaders now r.headers = .ok t) (ha : v.authenticate r body t = .ok a)
    (h : (v.recordNonce ledger t).1 = false) :
    FirstRefusal v now ledger r body .freshness (.replayed t.accessId) := by
  have hheaders := headers_pass v now ledger r body t ht
  obtain ⟨hr, _, _, _⟩ := (signed_headers_ok v now r.headers t).mp ht
  obtain ⟨hfound, hverify⟩ := (authenticate_ok v r body t a).mp ha
  rw [arrived_eq] at hverify
  have hbefore : ∀ d ∈ [Check.accessId, .timestamp, .age, .nonce, .signature] ++
      [.account, .genuineness], Passes v now ledger r body d := by
    rw [List.forall_mem_append]
    refine ⟨hheaders, ?_⟩
    simpa using ⟨known_passes v now ledger r body _ a hr.accessId hfound,
      genuine_passes v now ledger r body t a hr hfound hverify⟩
  cases hledger : ledger with
  | none =>
    rw [hledger] at h
    cases h
  | some l =>
    rw [hledger, record_some, Bool.not_eq_false'] at h
    rw [hledger] at hbefore
    exact ⟨.stale t l hr rfl h, _, _, rfl, hbefore⟩

theorem verified_iff (a : Account) :
    (v.verify now ledger r body).1 = .verified a ↔
      ¬ v.Exempt r ∧ ∃ t, Accepts v now ledger r body t a := by
  have hpair : (v.verify now ledger r body).1 = .verified a ↔
      ∃ recorded, v.verify now ledger r body = (.verified a, recorded) :=
    ⟨fun h => ⟨_, Prod.ext h rfl⟩, fun ⟨_, h⟩ => congrArg Prod.fst h⟩
  simp only [hpair, verify_verified, signed_headers_ok, authenticate_ok, arrived_eq]
  constructor
  · rintro ⟨recorded, hskip, t, ⟨hr, hid, hn, hcheck⟩, ⟨hfound, hverify⟩, hrecord⟩
    refine ⟨fun hx => ?_, t, hr, hid, hcheck, hn, hfound, hverify, ?_⟩
    · rw [(skips_iff v r).mpr hx] at hskip
      cases hskip
    · exact (record_fresh v ledger t).mp (congrArg Prod.fst hrecord)
  · rintro ⟨hx, t, h⟩
    have hskip : v.skips r.method r.target.path = false :=
      Bool.eq_false_iff.mpr fun hs => hx ((skips_iff v r).mp hs)
    exact ⟨_, hskip, t, ⟨h.read, h.named, h.marked, h.timely⟩, ⟨h.known, h.genuine⟩,
      Prod.ext ((record_fresh v ledger t).mpr h.fresh) rfl⟩

theorem skipped_iff : (v.verify now ledger r body).1 = .skipped ↔ v.Exempt r := by
  rw [← skips_iff, verify]
  by_cases hskip : v.skips r.method r.target.path = true
  · simp [hskip]
  · cases ht : v.signedHeaders now r.headers with
    | error why => simp [hskip]
    | ok t =>
      cases ha : v.authenticate r body t with
      | error why => simp [hskip, ha]
      | ok a =>
        cases hf : (v.recordNonce ledger t).1 <;> simp [hskip, ha, hf]

theorem refused_first (why : Refusal) (h : (v.verify now ledger r body).1 = .refused why) :
    ∃ c, FirstRefusal v now ledger r body c why := by
  rw [verify] at h
  by_cases hskip : v.skips r.method r.target.path = true
  · simp [hskip] at h
  · cases ht : v.signedHeaders now r.headers with
    | error other =>
      simp only [hskip, ht] at h
      obtain rfl := Verdict.refused.inj h
      exact headers_refuse v now ledger r body other ht
    | ok t =>
      cases ha : v.authenticate r body t with
      | error other =>
        simp only [hskip, ht, ha] at h
        obtain rfl := Verdict.refused.inj h
        exact account_refuses v now ledger r body t other ht ha
      | ok a =>
        simp only [hskip, ht, ha] at h
        cases hf : (v.recordNonce ledger t).1 with
        | true => simp [hf] at h
        | false =>
          simp only [hf] at h
          cases h
          exact ⟨_, nonce_refuses v now ledger r body t a ht ha hf⟩

theorem refused_iff (why : Refusal) :
    (v.verify now ledger r body).1 = .refused why ↔
      ¬ v.Exempt r ∧ ∃ c, FirstRefusal v now ledger r body c why := by
  constructor
  · intro h
    refine ⟨fun hx => ?_, refused_first v now ledger r body why h⟩
    rw [(skipped_iff v now ledger r body).mpr hx] at h
    cases h
  · rintro ⟨hx, c, hc⟩
    cases hv : (v.verify now ledger r body).1 with
    | skipped => exact absurd ((skipped_iff v now ledger r body).mp hv) hx
    | verified a =>
      obtain ⟨_, t, ht⟩ := (verified_iff v now ledger r body a).mp hv
      exact absurd hc.1 (accepts_passes v now ledger r body t a ht c why)
    | refused other =>
      obtain ⟨d, hd⟩ := refused_first v now ledger r body other hv
      rw [first_unique v now ledger r body c d why other hc hd]

/-- Only a wrong signature is explained, and only outside production. -/
theorem echo_of_refusal (c : Check) (why : Refusal) (echo : Echo)
    (h : Refuses v now ledger r body c why) :
    why.echo? = some echo ↔ c = .genuineness ∧ v.policy.production = false ∧
      ∃ t a, t.ReadFrom v.names r.headers ∧
        v.resolver t.accessId (r.headers.text? v.names.version) = .ok (some a) ∧
        echo = explanation r body t a := by
  have hexplained : ∀ t a, t.ReadFrom v.names r.headers →
      v.resolver t.accessId (r.headers.text? v.names.version) = .ok (some a) →
      (explained v r body t a = some echo ↔ v.policy.production = false ∧
        ∃ t a, t.ReadFrom v.names r.headers ∧
          v.resolver t.accessId (r.headers.text? v.names.version) = .ok (some a) ∧
          echo = explanation r body t a) := by
    intro t a hr ha
    cases hp : v.policy.production with
    | true => simp [explained, hp]
    | false =>
      simp only [explained, hp, Bool.false_eq_true, if_false, Option.some.injEq, true_and]
      constructor
      · intro he
        exact ⟨t, a, hr, ha, he.symm⟩
      · rintro ⟨u, b, hu, hb, rfl⟩
        obtain ⟨rfl, rfl⟩ := found_unique v r t u a b hr hu ha hb
        rfl
  cases h with
  | forged t a hr ha _ => simpa [Refusal.echo?] using hexplained t a hr ha
  | unverifiable t a e hr ha _ => simpa [Refusal.echo?] using hexplained t a hr ha
  | untimely timestamp _ _ hcheck =>
    have hearly := check_timestamp_early v.policy.window now timestamp why hcheck
    simp [Refusal.echo_early why hearly]
  | _ => simp [Refusal.echo?]

/-- The verdict on every request: which requests need no signature, which are an account's own, and
for all others which check refuses them and what is explained. -/
theorem verdict_exact :
    ((v.verify now ledger r body).1 = .skipped ↔ v.Exempt r) ∧
      (∀ a, (v.verify now ledger r body).1 = .verified a ↔
        ¬ v.Exempt r ∧ ∃ t, Accepts v now ledger r body t a) ∧
      ∀ why, (v.verify now ledger r body).1 = .refused why ↔
        ¬ v.Exempt r ∧ ∃ c, FirstRefusal v now ledger r body c why ∧
          ∀ echo, why.echo? = some echo ↔ c = .genuineness ∧ v.policy.production = false ∧
            ∃ t a, t.ReadFrom v.names r.headers ∧
              v.resolver t.accessId (r.headers.text? v.names.version) = .ok (some a) ∧
              echo = explanation r body t a := by
  refine ⟨skipped_iff v now ledger r body, verified_iff v now ledger r body, fun why => ?_⟩
  rw [refused_iff]
  constructor
  · rintro ⟨hx, c, hc⟩
    exact ⟨hx, c, hc, fun echo => echo_of_refusal v now ledger r body c why echo hc.1⟩
  · rintro ⟨hx, c, hc, _⟩
    exact ⟨hx, c, hc⟩

end Countersign.Verifier
