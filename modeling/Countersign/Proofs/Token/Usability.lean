import Countersign.Proofs.Time.Clock
import Countersign.Proofs.Token.Accounting
import Countersign.Proofs.Token.Written

/-!
# When a token is usable

A token ends twice: the mint compares its time of expiry with a reading, and the
store forgets its binding at an instant. The binding was made for the time that
the token had left, so it never ends first. What decides is therefore the time of
expiry alone, as long as the token was not revoked. The store counts bindings, and a
binding outlasts its token by less than the millisecond that a reading leaves out.
-/

set_option autoImplicit false

namespace Countersign.Registry

theorem remaining_nanos (now expireTime : Millis) (hstart : 0 ≤ now.toInt)
    (h : now.toInt ≤ expireTime.toInt) :
    (remaining now expireTime).nanos = 1000000 * (expireTime.toInt - now.toInt).toNat := by
  have hmax : Int64.maxValue.toInt = 9223372036854775807 := by decide
  have hle := expireTime.toInt_le
  have hleft : min (max (expireTime.toInt - now.toInt) 0) Int64.maxValue.toInt =
      expireTime.toInt - now.toInt := by omega
  have hvalue : (UInt64.ofNat (expireTime.toInt - now.toInt).toNat).toNat =
      (expireTime.toInt - now.toInt).toNat := by
    rw [UInt64.toNat_ofNat']
    omega
  show (UInt64.ofNat (min (max (expireTime.toInt - now.toInt) 0) Int64.maxValue.toInt).toNat).toNat *
    1000000 = _
  rw [hleft, hvalue]
  omega

variable (m : Mint) (events : List Event) (s : MemoryBindings) (i : Issued)

theorem ending_eq (hi : i.Sound m) :
    i.ending = i.instant + 1000000 * (i.token.expireTime.toInt - i.now.toInt).toNat := by
  rw [Issued.ending, remaining_nanos _ _ hi.started.1 hi.started.2]

/-- The store binds the id of an issued token to its subject while the token stands and its binding
has not ended. -/
theorem bound_iff (h : Accounted events s) (hdistinct : Distinct events)
    (hi : i ∈ issuedTokens events) :
    s.get? i.token.id = some i.token.subject ↔ i ∈ standing events ∧ s.now < i.ending := by
  have known : ∀ b ∈ s.live, b.id = i.token.id → b = i.binding ∧ i ∈ standing events ∧
      s.now < i.ending := by
    intro b hb hid
    obtain ⟨hentry, hlive⟩ := List.mem_filter.mp hb
    rw [h] at hentry
    obtain ⟨j, hj, rfl⟩ := List.mem_map.mp hentry
    obtain rfl := same_id events hdistinct j i (standing_issued events j hj) hi hid
    exact ⟨rfl, hj, of_decide_eq_true hlive⟩
  rw [MemoryBindings.get?, Option.map_eq_some_iff]
  constructor
  · rintro ⟨b, hb, _⟩
    have hid : b.id = i.token.id := by simpa using List.find?_some hb
    exact (known b (List.mem_of_find?_eq_some hb) hid).2
  · rintro ⟨hstanding, hending⟩
    have hlive : i.binding ∈ s.live := by
      refine List.mem_filter.mpr ⟨?_, decide_eq_true hending⟩
      rw [h]
      exact List.mem_map_of_mem hstanding
    have hsome : (s.live.find? fun b => b.id == i.token.id).isSome = true := by
      rw [List.find?_isSome]
      exact ⟨i.binding, hlive, by simp [Issued.binding]⟩
    obtain ⟨b, hb⟩ := Option.isSome_iff_exists.mp hsome
    have hid : b.id = i.token.id := by simpa using List.find?_some hb
    refine ⟨b, hb, ?_⟩
    rw [(known b (List.mem_of_find?_eq_some hb) hid).1]
    rfl

theorem accounted_at (st : State) (instant : Nat) (h : Accounted st.events st.store) :
    Accounted st.events (st.storeAt instant) := h

theorem validate_own (hi : i.Sound m) (now : Millis) (u : Token) :
    (validate m now i.token.kind i.token.value s).1 = .ok u ↔
      u = i.token ∧ now < i.token.expireTime ∧ s.get? i.token.id = some i.token.subject := by
  obtain ⟨c, hc, htoken⟩ := hi.genuine
  have hdecode : m.decode i.token.kind i.token.value = .ok i.token := by
    have hgenuine := m.decode_genuine i.token.value c hc i.token.kind
    rwa [← htoken, if_pos rfl] at hgenuine
  rw [validate, Mint.parse, hdecode]
  by_cases hover : i.token.expireTime ≤ now
  · have hnot : ¬ now < i.token.expireTime := Int64.not_lt.mpr hover
    simp [hover, hnot]
  · have hlt : now < i.token.expireTime := Int64.not_le.mp hover
    by_cases hbound : s.get? i.token.id = some i.token.subject
    · simp [hover, hlt, hbound, BindingStore.get, eq_comm]
    · simp [hover, hbound, BindingStore.get]

theorem other_kind (hi : i.Sound m) (now : Millis) (kind : TokenKind) (hk : kind ≠ i.token.kind) :
    ∃ flaw, validate m now kind i.token.value s = (.error (.flawed flaw), s) ∧
      revoke m kind i.token.value s = (.error (.flawed flaw), s) := by
  obtain ⟨c, hc, htoken⟩ := hi.genuine
  have hdecode : m.decode kind i.token.value = .error (Mint.wrongKind kind) := by
    have hgenuine := m.decode_genuine i.token.value c hc kind
    rwa [← htoken, if_neg hk] at hgenuine
  refine ⟨Mint.wrongKind kind, ?_, ?_⟩
  · rw [validate, Mint.parse, hdecode]
  · rw [revoke, hdecode]

/-- The tokens of a subject that stand and whose time is not over at a reading. -/
def usable (events : List Event) (now : Millis) (subject : String) : List Issued :=
  (standing events).filter fun i => i.token.subject == subject && decide (now < i.token.expireTime)

/-- The tokens of a subject that stand and were issued for longer than has passed until an instant. -/
def unended (events : List Event) (instant : Nat) (subject : String) : List Issued :=
  (standing events).filter fun i => i.token.subject == subject &&
    decide (instant < i.instant + 1000000 * (i.token.expireTime.toInt - i.now.toInt).toNat)

theorem issued_sound (requests : List Request) (hnow : ∀ r ∈ requests, 0 ≤ r.now.toInt)
    (hfaithful : Faithful m (run m requests).events) :
    ∀ i ∈ issuedTokens (run m requests).events, i.Sound m := by
  intro i hi
  obtain ⟨e, he, hissued⟩ := List.mem_filterMap.mp hi
  obtain ⟨hr, s, hserved⟩ := run_events m requests e he
  exact served_sound m _ hfaithful e he s hserved (hnow _ hr) i hissued

theorem issued_request (requests : List Request) (hi : i ∈ issuedTokens (run m requests).events) :
    ∃ r ∈ requests, i.now = r.now ∧ i.instant = r.instant := by
  obtain ⟨e, he, hissued⟩ := List.mem_filterMap.mp hi
  obtain ⟨_, _, _, hnow, hinstant⟩ := issued_order m.policy e i hissued
  exact ⟨e.toRequest, (run_events m requests e he).1, hnow, hinstant⟩

variable (origin : Int) (now : Millis) (instant : Nat)

theorem bound_of_unexpired (hi : i.Sound m) (hissued : Together origin i.now i.instant)
    (hnow : Together origin now instant) (h : now < i.token.expireTime) : instant < i.ending := by
  have hstart := hi.started.2
  have hlt := Int64.lt_iff_toInt_lt.mp h
  rw [ending_eq m i hi]
  exact together_before origin i.now now i.instant instant hissued hnow _ (by omega)

theorem reading_of_bound (hi : i.Sound m) (hissued : Together origin i.now i.instant)
    (hnow : Together origin now instant) (h : instant < i.ending) : now ≤ i.token.expireTime := by
  have hstart := hi.started.2
  rw [ending_eq m i hi] at h
  have hwithin := together_within origin i.now now i.instant instant hissued hnow _ h
  rw [Int64.le_iff_toInt_le]
  omega

theorem validate_standing (h : Accounted events s) (hdistinct : Distinct events)
    (hi : i ∈ issuedTokens events) (hsound : i.Sound m) (hissued : Together origin i.now i.instant)
    (hnow : Together origin now s.now) (u : Token) :
    (validate m now i.token.kind i.token.value s).1 = .ok u ↔
      u = i.token ∧ now < i.token.expireTime ∧ i ∈ standing events := by
  rw [validate_own m s i hsound now u, bound_iff events s i h hdistinct hi]
  constructor
  · rintro ⟨hu, hlt, hstanding, _⟩
    exact ⟨hu, hlt, hstanding⟩
  · rintro ⟨hu, hlt, hstanding⟩
    exact ⟨hu, hlt, hstanding, bound_of_unexpired m i origin now s.now hsound hissued hnow hlt⟩

variable (subject : String)

theorem count_unended (h : Accounted events s) (hsound : ∀ i ∈ standing events, i.Sound m) :
    (revokeAll subject s).1 = .ok (unended events s.now subject).length := by
  rw [revoke_all_eq, MemoryBindings.count, MemoryBindings.live, h, List.countP_filter,
    List.countP_map, unended, ← List.countP_eq_length_filter]
  refine congrArg Except.ok (List.countP_congr fun i hi => ?_)
  rw [← ending_eq m i (hsound i hi)]
  exact Iff.rfl

section Clocks

variable (hsound : ∀ i ∈ standing events, i.Sound m)
  (htogether : ∀ i ∈ standing events, Together origin i.now i.instant)
  (hnow : Together origin now instant)

include hsound htogether hnow

/-- The usable tokens are those with a binding whose time of expiry is not the reading itself. -/
theorem usable_eq_unended : usable events now subject =
    (unended events instant subject).filter fun i => i.token.expireTime ≠ now := by
  rw [usable, unended, List.filter_filter]
  refine List.filter_congr fun i hi => Bool.eq_iff_iff.mpr ?_
  have hbound := bound_of_unexpired m i origin now instant (hsound i hi) (htogether i hi) hnow
  have hreading := reading_of_bound m i origin now instant (hsound i hi) (htogether i hi) hnow
  rw [ending_eq m i (hsound i hi)] at hbound hreading
  simp only [Bool.and_eq_true, beq_iff_eq, decide_eq_true_iff, ne_eq]
  constructor
  · rintro ⟨hsubject, hlt⟩
    exact ⟨fun he => Int64.lt_irrefl (he ▸ hlt), hsubject, hbound hlt⟩
  · rintro ⟨hne, hsubject, hend⟩
    exact ⟨hsubject, Int64.lt_of_le_of_ne (hreading hend) (Ne.symm hne)⟩

theorem usable_eq_unended_whole
    (hwhole : ∀ i ∈ standing events, ((instant : Int) - i.instant) % 1000000 = 0) :
    usable events now subject = unended events instant subject := by
  rw [usable, unended]
  refine List.filter_congr fun i hi => Bool.eq_iff_iff.mpr ?_
  have hstart := (hsound i hi).started.2
  have hends := together_whole origin i.now now i.instant instant (htogether i hi) hnow (hwhole i hi)
    (i.token.expireTime.toInt - i.now.toInt).toNat
  simp only [Bool.and_eq_true, decide_eq_true_iff]
  refine and_congr_right fun _ => ?_
  rw [hends, Int64.lt_iff_toInt_lt]
  omega

end Clocks

/-- A token is usable exactly until its time is over or it is revoked, as the kind that it is.
Revoking a subject counts its tokens that were not revoked and whose bindings have not ended: the
usable ones and those that expire at the very reading, of which there are none when whole
milliseconds have passed since the tokens were issued. -/
theorem token_usable (requests : List Request) (origin : Int)
    (hclock : ∀ r ∈ requests, 0 ≤ r.now.toInt ∧ Together origin r.now r.instant)
    (hdistinct : Distinct (run m requests).events) (hfaithful : Faithful m (run m requests).events)
    (now : Millis) (instant : Nat) (hnow : Together origin now instant) :
    (∀ before e after i, (run m requests).events = before ++ e :: after → e.issued? = some i →
      (∀ u, (validate m now i.token.kind i.token.value ((run m requests).storeAt instant)).1 = .ok u ↔
        u = i.token ∧ now < i.token.expireTime ∧ ∀ f ∈ after, f.revokes i.token = false) ∧
      ∀ kind, kind ≠ i.token.kind → ∃ failure detail, failure.error = .invalidToken detail ∧
        validate m now kind i.token.value ((run m requests).storeAt instant) =
          (.error failure, (run m requests).storeAt instant) ∧
        revoke m kind i.token.value ((run m requests).storeAt instant) =
          (.error failure, (run m requests).storeAt instant)) ∧
    ∀ subject,
      (revokeAll subject ((run m requests).storeAt instant)).1 =
        .ok (unended (run m requests).events instant subject).length ∧
      usable (run m requests).events now subject =
        (unended (run m requests).events instant subject).filter
          (fun i => i.token.expireTime ≠ now) ∧
      ((∀ r ∈ requests, ((instant : Int) - r.instant) % 1000000 = 0) →
        usable (run m requests).events now subject =
          unended (run m requests).events instant subject) := by
  have hsound := issued_sound m requests (fun r hr => (hclock r hr).1) hfaithful
  have haccounted := accounted_at _ instant (run_accounted m requests hsound hdistinct)
  have htogether : ∀ i ∈ issuedTokens (run m requests).events, Together origin i.now i.instant := by
    intro i hi
    obtain ⟨r, hr, hreading, hinstant⟩ := issued_request m i requests hi
    rw [hreading, hinstant]
    exact (hclock r hr).2
  constructor
  · intro before e after i hsplit he
    have hi : i ∈ issuedTokens (run m requests).events :=
      List.mem_filterMap.mpr ⟨e, by rw [hsplit]; simp, he⟩
    constructor
    · intro u
      have hstanding := standing_iff before after e i he (hsplit ▸ hdistinct)
      rw [← hsplit] at hstanding
      rw [← hstanding]
      exact validate_standing m _ _ i origin now haccounted hdistinct hi (hsound i hi)
        (htogether i hi) hnow u
    · intro kind hkind
      obtain ⟨flaw, hvalidate, hrevoke⟩ := other_kind m _ i (hsound i hi) now kind hkind
      exact ⟨.flawed flaw, flaw.message, rfl, hvalidate, hrevoke⟩
  · intro subject
    have hissued := standing_issued (run m requests).events
    have hstands := fun i hi => hsound i (hissued i hi)
    have hclocks := fun i hi => htogether i (hissued i hi)
    refine ⟨count_unended m _ _ subject haccounted hstands,
      usable_eq_unended m _ origin now instant subject hstands hclocks hnow, ?_⟩
    intro hwhole
    apply usable_eq_unended_whole m _ origin now instant subject hstands hclocks hnow
    intro i hi
    obtain ⟨r, hr, _, hinstant⟩ := issued_request m i requests (hissued i hi)
    rw [hinstant]
    exact hwhole r hr

/-- Two Mersenne primes make a key whose numbers are short to write. -/
def sampleNumbers : Rsa.PrivateNumbers :=
  let p := Nat.pow 2 1279 - 1
  let q := Nat.pow 2 2203 - 1
  let secret := (Rsa.inverse? 65537 ((p - 1) * (q - 1))).getD 0
  ⟨⟨p * q, 65537⟩, secret, p, q, secret % (p - 1), secret % (q - 1), (Rsa.inverse? q p).getD 0⟩

def sampleMint : Mint where
  policy := {}
  keys :=
    { signing := some ⟨sampleNumbers, by decide +kernel, by decide +kernel⟩
      verifying := some ⟨sampleNumbers.toPublicNumbers, by decide +kernel⟩ }

def sampleSeed : Nonce := ⟨"fedcba9876543210FEDCBA9876543210", by decide, by
    rw [← List.all_eq_true]
    decide⟩

def sampleRequest : Request := ⟨1000, 0, .issueRefresh sampleSeed "user" none⟩

def sampleClaims : Claims :=
  sampleMint.claims 1000 sampleSeed "user" none sampleMint.policy.refreshTtl

theorem sample_issues : (sampleMint.issueRefresh 1000 sampleSeed "user" none).toOption.isSome =
    true := by
  decide +kernel

theorem sample_claims_read :
    Claims.ofBytes? (Utf8.encode sampleClaims.toJson.print) = some sampleClaims := by
  have hfields : (Claims.ofBytes? (Utf8.encode sampleClaims.toJson.print)).map (fun c =>
      ((c.issuer, c.audience, c.subject, c.id), (c.expirySeconds, c.expireTime, c.issuedAt),
        c.user.isNone)) =
      some ((sampleClaims.issuer, sampleClaims.audience, sampleClaims.subject, sampleClaims.id),
        (sampleClaims.expirySeconds, sampleClaims.expireTime, sampleClaims.issuedAt), true) := by
    decide +kernel
  obtain ⟨c, hc, hfields⟩ := Option.map_eq_some_iff.mp hfields
  rw [hc]
  obtain ⟨issuer, audience, subject, expirySeconds, expireTime, issuedAt, id, user⟩ := c
  simp only [Prod.mk.injEq, Option.isNone_iff_eq_none] at hfields
  obtain ⟨⟨rfl, rfl, rfl, rfl⟩, ⟨rfl, rfl, rfl⟩, rfl⟩ := hfields
  rfl

def sampleAt (instant : Nat) : Request := { sampleRequest with instant := instant }

section Sample

variable (t : Token) (h : sampleMint.issueRefresh 1000 sampleSeed "user" none = .ok t)

include h

theorem sample_token : t.kind = .refresh ∧ t.subject = "user" ∧ t.expireTime = 604801000 := by
  have htoken := sampleMint.issue_token _ _ _ _ _ _ h
  refine ⟨by rw [htoken]; rfl, by rw [htoken]; rfl, ?_⟩
  rw [htoken]
  show Mint.expiryOf 1000 sampleMint.policy.refreshTtl = 604801000
  decide

variable (instant : Nat) (hinstant : instant < 1000000)

include hinstant

theorem sample_events :
    (run sampleMint [sampleAt instant]).events = [⟨sampleAt instant, .token (.ok t)⟩] := by
  have hroom : instant + (remaining 1000 t.expireTime).nanos < MemoryBindings.horizon := by
    have hleft : (remaining 1000 604801000).nanos = 604800000000000 := by decide
    rw [(sample_token t h).2.2, hleft, MemoryBindings.horizon]
    omega
  have hput := put_room ⟨instant, []⟩ t.id t.subject (remaining 1000 t.expireTime) hroom
  show [Event.mk (sampleAt instant) (.token (bind 1000
    (sampleMint.issueRefresh 1000 sampleSeed "user" none) (MemoryBindings.mk instant [])).1)] = _
  rw [h, bind_put 1000 t _ _ _ hput]
  rfl

theorem sample_distinct : Distinct (run sampleMint [sampleAt instant]).events := by
  rw [sample_events t h instant hinstant]
  constructor
  · simp [issuedTokens, List.filterMap, Event.issued?, sampleAt, sampleRequest]
  · intro e he kind value _ hop _
    rw [List.mem_singleton.mp he] at hop
    cases hop

theorem sample_faithful : Faithful sampleMint (run sampleMint [sampleAt instant]).events := by
  rw [sample_events t h instant hinstant]
  intro e he i c hissued hclaims
  obtain rfl := List.mem_singleton.mp he
  cases hissued
  cases hclaims
  rw [sampleMint.verified_issued _ _ rfl rfl rfl _ _ _ _ _ _ h]
  show Mint.orFlaw _ (Claims.ofBytes? (Utf8.encode sampleClaims.toJson.print)) = _
  rw [sample_claims_read]
  rfl

theorem sample_standing :
    standing (run sampleMint [sampleAt instant]).events = [⟨t, 1000, instant⟩] := by
  rw [sample_events t h instant hinstant]
  rfl

end Sample

theorem sample_clock (instant : Nat) (hinstant : instant < 1000000) :
    ∀ r ∈ [sampleAt instant], 0 ≤ r.now.toInt ∧ Together 1000000000 r.now r.instant := by
  intro r hr
  rw [List.mem_singleton.mp hr]
  have hnow : (1000 : Millis).toInt = 1000 := by decide
  show 0 ≤ (1000 : Millis).toInt ∧ (1000 : Millis).toInt = (1000000000 + (instant : Int)) / 1000000
  rw [hnow]
  omega

theorem sample_issued : ∃ t, sampleMint.issueRefresh 1000 sampleSeed "user" none = .ok t := by
  cases hissue : sampleMint.issueRefresh 1000 sampleSeed "user" none with
  | error e =>
    have hissues := sample_issues
    rw [hissue] at hissues
    cases hissues
  | ok t => exact ⟨t, rfl⟩

theorem token_usable_refresh :
    ∃ t, sampleMint.issueRefresh 1000 sampleSeed "user" none = .ok t ∧
      (validate sampleMint 604800999 .refresh t.value
        ((run sampleMint [sampleAt 0]).storeAt 604799999000000)).1 = .ok t ∧
      (revokeAll "user" ((run sampleMint [sampleAt 0]).storeAt 604799999000000)).1 = .ok 1 := by
  obtain ⟨t, hissue⟩ := sample_issued
  obtain ⟨hkind, hsubject, hexpire⟩ := sample_token t hissue
  obtain ⟨huse, hcount⟩ := token_usable sampleMint [sampleAt 0] 1000000000
    (sample_clock 0 (by decide)) (sample_distinct t hissue 0 (by decide))
    (sample_faithful t hissue 0 (by decide)) 604800999 604799999000000 (by unfold Together; decide)
  refine ⟨t, hissue, ?_, ?_⟩
  · have hvalid := (huse [] _ [] ⟨t, 1000, 0⟩ (sample_events t hissue 0 (by decide)) rfl).1 t
    rw [hkind, hexpire] at hvalid
    exact hvalid.mpr ⟨rfl, by decide, by simp⟩
  · rw [(hcount "user").1, unended, sample_standing t hissue 0 (by decide),
      List.filter_cons_of_pos (by simp only [hsubject, hexpire]; decide)]
    rfl

/-- Issued half a millisecond after its reading, a token is still counted when its time is over and
it is not usable any more. -/
theorem overdue_counted :
    ∃ t, sampleMint.issueRefresh 1000 sampleSeed "user" none = .ok t ∧
      (∀ r ∈ [sampleAt 500000], 0 ≤ r.now.toInt ∧ Together 1000000000 r.now r.instant) ∧
      Distinct (run sampleMint [sampleAt 500000]).events ∧
      Faithful sampleMint (run sampleMint [sampleAt 500000]).events ∧
      Together 1000000000 604801000 604800000000000 ∧
      (validate sampleMint 604801000 .refresh t.value
        ((run sampleMint [sampleAt 500000]).storeAt 604800000000000)).1 ≠ .ok t ∧
      usable (run sampleMint [sampleAt 500000]).events 604801000 "user" = [] ∧
      (revokeAll "user" ((run sampleMint [sampleAt 500000]).storeAt 604800000000000)).1 = .ok 1 := by
  obtain ⟨t, hissue⟩ := sample_issued
  obtain ⟨hkind, hsubject, hexpire⟩ := sample_token t hissue
  have hclock := sample_clock 500000 (by decide)
  have hdistinct := sample_distinct t hissue 500000 (by decide)
  have hfaithful := sample_faithful t hissue 500000 (by decide)
  have hstanding := sample_standing t hissue 500000 (by decide)
  have hsound := issued_sound sampleMint _ (fun r hr => (hclock r hr).1) hfaithful
  have hmem : ⟨t, 1000, 500000⟩ ∈ issuedTokens (run sampleMint [sampleAt 500000]).events :=
    standing_issued _ _ (hstanding ▸ List.mem_singleton.mpr rfl)
  refine ⟨t, hissue, hclock, hdistinct, hfaithful, by unfold Together; decide, ?_, ?_, ?_⟩
  · intro hvalid
    rw [← hkind] at hvalid
    have hlt := ((validate_own sampleMint _ ⟨t, 1000, 500000⟩ (hsound _ hmem) 604801000 t).mp hvalid).2.1
    rw [hexpire] at hlt
    exact absurd hlt (by decide)
  · rw [usable, hstanding, List.filter_cons_of_neg (by simp [hexpire])]
    rfl
  · have haccounted := accounted_at _ 604800000000000 (run_accounted sampleMint _ hsound hdistinct)
    rw [count_unended sampleMint _ _ "user" haccounted fun i hi => hsound i (standing_issued _ i hi),
      unended, hstanding, List.filter_cons_of_pos (by simp only [hsubject, hexpire]; decide)]
    rfl

end Countersign.Registry
