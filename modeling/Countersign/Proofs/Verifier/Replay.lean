import Countersign.Proofs.Verifier.Run
import Countersign.Proofs.Verifier.Signed

/-!
# No request is verified twice

A nonce is remembered for twice the window from the call that recorded it, but
never for longer than the cap of the ledger. A timestamp is acceptable for twice
the window as well. So a second call with the same texts comes too late for its
timestamp or too early for its nonce, unless the two calls stand at the two ends
of the window or are as far apart as the cap.
-/

set_option autoImplicit false

namespace Countersign

structure Call.SameTexts (n : HeaderNames) (c d : Call) : Prop where
  accessId : c.request.headers.text? n.accessId = d.request.headers.text? n.accessId
  timestamp : c.request.headers.text? n.timestamp = d.request.headers.text? n.timestamp
  nonce : c.request.headers.text? n.nonce = d.request.headers.text? n.nonce

def Call.sent? (n : HeaderNames) (c : Call) : Option Millis :=
  (c.request.headers.text? n.timestamp).bind fun t => Text.int64? (Text.trim t.toList)

namespace Verifier

theorem verified_remembers (v : Verifier) (l : NonceLedger) (c : Call) (a : Account)
    (h : (v.step (some l) c).1 = .verified a) :
    ∃ t, v.signedHeaders c.now c.request.headers = .ok t ∧
      Remembers (v.step (some l) c).2 (NonceLedger.key t.accessId t.nonce)
        (c.instant + (v.policy.replayTtl.min NonceLedger.maxTtl).nanos) := by
  obtain ⟨_, t, ht, _, hrecord⟩ := (verify_verified v c.now _ _ _ _ a).mp (Prod.ext h rfl)
  refine ⟨t, ht, _, (congrArg Prod.snd hrecord).symm, ?_⟩
  exact NonceLedger.check_records _ _ _ _ (congrArg Prod.fst hrecord)

theorem remembered_not_verified (v : Verifier) (l : NonceLedger) (d : Call) (t : SignedHeaders)
    (limit : Nat) (ht : v.signedHeaders d.now d.request.headers = .ok t)
    (h : l.Remembers (NonceLedger.key t.accessId t.nonce) limit) (hn : d.instant < limit)
    (b : Account) : (v.step (some l) d).1 ≠ .verified b := by
  intro hb
  obtain ⟨_, t', ht', _, hrecord⟩ := (verify_verified v d.now _ _ _ _ b).mp (Prod.ext hb rfl)
  rw [ht] at ht'
  cases ht'
  have hrefused := NonceLedger.check_refuses (l.atInstant d.instant) t.accessId t.nonce
    v.policy.replayTtl limit h hn
  exact absurd (congrArg Prod.fst hrecord) (by simp [recordNonce, hrefused])

theorem same_texts_headers (v : Verifier) (c d : Call) (s t : SignedHeaders)
    (hsame : c.SameTexts v.names d) (hs : v.signedHeaders c.now c.request.headers = .ok s)
    (ht : v.signedHeaders d.now d.request.headers = .ok t) :
    s.accessId = t.accessId ∧ s.nonce = t.nonce := by
  obtain ⟨hsr, _⟩ := (signed_headers_ok v _ _ s).mp hs
  obtain ⟨htr, _⟩ := (signed_headers_ok v _ _ t).mp ht
  have hid := hsr.accessId.symm.trans (hsame.accessId.trans htr.accessId)
  have hnonce := hsr.nonce.symm.trans (hsame.nonce.trans htr.nonce)
  exact ⟨Option.some.inj hid, Option.some.inj hnonce⟩

/-- A call that repeats a verified one is verified only after the nonce was forgotten. -/
theorem repeated_after_limit (v : Verifier) (ledger : NonceLedger) (before between : List Call)
    (c d : Call) (a b : Account) (hsame : c.SameTexts v.names d)
    (hbetween : ∀ e ∈ between, e.instant ≤ d.instant)
    (hc : (v.step (v.ledgerAfter (some ledger) before) c).1 = .verified a)
    (hd : (v.step (v.ledgerAfter (some ledger) (before ++ c :: between)) d).1 = .verified b) :
    c.instant + (v.policy.replayTtl.min NonceLedger.maxTtl).nanos ≤ d.instant := by
  obtain ⟨l, hl⟩ := run_ledger v ledger before
  rw [hl] at hc
  obtain ⟨s, hs, hremember⟩ := verified_remembers v l c a hc
  by_cases hlate : c.instant + (v.policy.replayTtl.min NonceLedger.maxTtl).nanos ≤ d.instant
  · exact hlate
  have hrun := run_remembers v _ between _ _ hremember fun e he => by
    have hle := hbetween e he
    omega
  obtain ⟨l', hl', hkeeps⟩ := hrun
  have hledger : v.ledgerAfter (some ledger) (before ++ c :: between) = some l' := by
    rw [ledger_after_append, hl, ← hl']
    rfl
  rw [hledger] at hd
  obtain ⟨t, ht, _⟩ := verified_remembers v l' d b hd
  obtain ⟨hid, hnonce⟩ := same_texts_headers v c d s t hsame hs ht
  rw [hid, hnonce] at hkeeps
  exact absurd hd (remembered_not_verified v l' d t _ ht hkeeps (by omega) b)

theorem verified_in_window (v : Verifier) (ledger : Option NonceLedger) (c : Call) (a : Account)
    (h : (v.step ledger c).1 = .verified a) :
    ∃ sent, c.sent? v.names = some sent ∧
      ((c.now.toInt - sent.toInt).natAbs ≤ 1000 * v.policy.windowSecs.toNat ∨
        Int64.maxValue.toInt ≤ 1000 * v.policy.windowSecs.toNat) := by
  obtain ⟨_, t, ht, _⟩ := (verify_verified v c.now _ _ _ _ a).mp (Prod.ext h rfl)
  obtain ⟨hr, _, _, hcheck⟩ := (signed_headers_ok v _ _ t).mp ht
  obtain ⟨sent, hsent, hskew⟩ := (check_timestamp_ok _ _ _).mp hcheck
  refine ⟨sent, ?_, (skew_le v.policy.windowSecs c.now sent).mp hskew⟩
  rw [Call.sent?, hr.timestamp]
  exact hsent

/-- The first call is made when the timestamp begins to be acceptable, the second one when it ends
to be, and the replay time is just over in between. -/
structure AtBothEnds (v : Verifier) (c d : Call) : Prop where
  ends : ∃ sent, c.sent? v.names = some sent ∧
    c.now.toInt = sent.toInt - 1000 * v.policy.windowSecs.toNat ∧
    d.now.toInt = sent.toInt + 1000 * v.policy.windowSecs.toNat
  apart : c.instant + v.policy.replayTtl.nanos ≤ d.instant

/-- The replay time reaches the cap of the ledger, and so does the time between the calls. -/
def PastCap (v : Verifier) (c d : Call) : Prop :=
  NonceLedger.maxTtl.nanos ≤ v.policy.replayTtl.nanos ∧
    c.instant + NonceLedger.maxTtl.nanos ≤ d.instant

theorem replay_ttl_eq (p : Policy) (h : p.replayTtl.nanos < NonceLedger.maxTtl.nanos) :
    p.replayTtl.nanos = 2000000000 * p.windowSecs.toNat := by
  have hdouble : p.replayTtl = Duration.ofNanos (2 * (p.windowSecs.toNat * 1000000000)) := rfl
  by_cases hlt : 2 * (p.windowSecs.toNat * 1000000000) < 18446744073709551616000000000
  · rw [hdouble, Duration.ofNanos, dif_pos hlt]
    show 2 * (p.windowSecs.toNat * 1000000000) = 2000000000 * p.windowSecs.toNat
    omega
  · rw [hdouble, Duration.ofNanos, dif_neg hlt] at h
    exact absurd h (by decide)

theorem cap_nanos : NonceLedger.maxTtl.nanos = 31536000000000000 := by decide

theorem ends_of_far (secs : Nat) (first second : Millis) (sent origin : Int) (m n : Nat)
    (hm : Together origin first m) (hn : Together origin second n)
    (hfirst : (first.toInt - sent).natAbs ≤ 1000 * secs)
    (hsecond : (second.toInt - sent).natAbs ≤ 1000 * secs) (hfar : m + 2000000000 * secs ≤ n) :
    first.toInt = sent - 1000 * secs ∧ second.toInt = sent + 1000 * secs := by
  have hspan := together_span origin first second m n hm hn (2000 * secs) (by omega)
  omega

/-- A call that repeats the texts of a verified one is not verified, unless the two stand at the two
ends of the window or are as far apart as the cap of the ledger. -/
theorem replay_not_verified (v : Verifier) (ledger : NonceLedger) (calls : List Call)
    (hclock : Clocked calls) (i j : Nat) (hij : i < j) (c d : Call) (hc : calls[i]? = some c)
    (hd : calls[j]? = some d) (hsame : c.SameTexts v.names d) (hends : ¬ AtBothEnds v c d)
    (hcap : ¬ PastCap v c d) (a : Account)
    (ha : (v.verdicts (some ledger) calls)[i]? = some (.verified a)) :
    ∀ b, (v.verdicts (some ledger) calls)[j]? ≠ some (.verified b) := by
  intro b hb
  have hci : (calls.take j)[i]? = some c := by rw [List.getElem?_take_of_lt hij, hc]
  have hhistory := split_at (calls.take j) i c hci
  rw [List.take_take, Nat.min_eq_left (Nat.le_of_lt hij)] at hhistory
  rw [verdicts_get v _ calls i c hc, Option.some.injEq] at ha
  rw [verdicts_get v _ calls j d hd, Option.some.injEq] at hb
  have hforward := hclock.forward
  rw [split_at calls j d hd, List.pairwise_append] at hforward
  have hbetween : ∀ e ∈ (calls.take j).drop (i + 1), e.instant ≤ d.instant := fun e he =>
    hforward.2.2 e (List.mem_of_mem_drop he) d (by simp)
  have hlimit := repeated_after_limit v ledger _ _ c d a b hsame hbetween ha (hhistory ▸ hb)
  rw [Duration.nanos_min] at hlimit
  by_cases hlong : NonceLedger.maxTtl.nanos ≤ v.policy.replayTtl.nanos
  · rw [Nat.min_eq_right hlong] at hlimit
    exact hcap ⟨hlong, hlimit⟩
  -- The nonce was remembered for the whole of twice the window, so the calls use all of it up.
  have hshort := Nat.lt_of_not_le hlong
  have httl := replay_ttl_eq v.policy hshort
  rw [Nat.min_eq_left (Nat.le_of_lt hshort)] at hlimit
  rw [httl, cap_nanos] at hshort
  have hmax : Int64.maxValue.toInt = 9223372036854775807 := by decide
  obtain ⟨sent, hsent, hfirst⟩ := verified_in_window v _ c a ha
  obtain ⟨sent', hsent', hsecond⟩ := verified_in_window v _ d b hb
  have hone : c.sent? v.names = d.sent? v.names := by rw [Call.sent?, Call.sent?, hsame.timestamp]
  obtain rfl : sent = sent' := Option.some.inj (hsent.symm.trans (hone.trans hsent'))
  obtain ⟨origin, htogether⟩ := hclock.together
  have hfar := ends_of_far v.policy.windowSecs.toNat c.now d.now sent.toInt origin _ _
    (htogether c (List.mem_of_getElem? hc)) (htogether d (List.mem_of_getElem? hd))
    (by omega) (by omega) (httl ▸ hlimit)
  exact hends ⟨⟨sent, hsent, hfar⟩, hlimit⟩

def sampleCall (now : Millis) (instant : Nat) : Call where
  now := now
  instant := instant
  request :=
    { headers :=
        [(sampleNames.accessId, ⟨Utf8.ofString plainAccount.accessId, by decide⟩),
          (sampleNames.timestamp, ⟨Utf8.ofString "0", zero_value⟩),
          (sampleNames.nonce, ⟨Utf8.ofString sampleNonce.text, sample_nonce_value⟩),
          (sampleNames.sign,
            ⟨Utf8.ofString "LKJA2yVXW/mfxGPZ1xpf+TFm2ly9S0Q8k3161Fx6Fm8=", by decide⟩)] }
  body := none

theorem sample_same_texts (first second : Millis) (m n : Nat) :
    (sampleCall first m).SameTexts sampleNames (sampleCall second n) := ⟨rfl, rfl, rfl⟩

theorem replay_not_verified_in_window :
    (((sampleVerifier 300 plainAccount).verdicts (some {})
      [sampleCall 0 0, sampleCall 299999 299999000000])[0]? = some (.verified plainAccount)) ∧
    ∀ b, ((sampleVerifier 300 plainAccount).verdicts (some {})
      [sampleCall 0 0, sampleCall 299999 299999000000])[1]? ≠ some (.verified b) := by
  have hfirst : ((sampleVerifier 300 plainAccount).verdicts (some {})
      [sampleCall 0 0, sampleCall 299999 299999000000])[0]? = some (.verified plainAccount) := by
    decide +kernel
  have hclock : Clocked [sampleCall 0 0, sampleCall 299999 299999000000] :=
    ⟨⟨0, by unfold Together; decide⟩, by decide⟩
  have hends : ¬ AtBothEnds (sampleVerifier 300 plainAccount) (sampleCall 0 0)
      (sampleCall 299999 299999000000) := by
    rintro ⟨⟨sent, _, hone, htwo⟩, _⟩
    have hsecs : ((sampleVerifier 300 plainAccount).policy.windowSecs.toNat : Int) = 300 := rfl
    have hfirst : (sampleCall 0 0).now.toInt = 0 := rfl
    have hsecond : (sampleCall 299999 299999000000).now.toInt = 299999 := rfl
    omega
  have hcap : ¬ PastCap (sampleVerifier 300 plainAccount) (sampleCall 0 0)
      (sampleCall 299999 299999000000) := by
    rintro ⟨hlong, _⟩
    exact absurd hlong (by decide)
  exact ⟨hfirst, replay_not_verified _ {} _ hclock 0 1 (by decide) _ _ rfl rfl
    (sample_same_texts _ _ _ _) hends hcap plainAccount hfirst⟩

/-- Replays that are verified: at once under an empty window, and after a year under a window of
more than half a year. -/
theorem replays_verified :
    (Clocked [sampleCall 0 0, sampleCall 0 0] ∧
      (sampleVerifier 0 plainAccount).verdicts
        (initialLedger (sampleVerifier 0 plainAccount).policy) [sampleCall 0 0, sampleCall 0 0] =
          [.verified plainAccount, .verified plainAccount]) ∧
    (Clocked [sampleCall (-15768000000) 0, sampleCall 15768000000 31536000000000000] ∧
      (sampleVerifier 16000000 plainAccount).verdicts
        (initialLedger (sampleVerifier 16000000 plainAccount).policy)
        [sampleCall (-15768000000) 0, sampleCall 15768000000 31536000000000000] =
          [.verified plainAccount, .verified plainAccount]) := by
  constructor
  · exact ⟨⟨⟨0, by unfold Together; decide⟩, by decide⟩, by decide +kernel⟩
  · exact ⟨⟨⟨-15768000000000000, by unfold Together; decide⟩, by decide⟩, by decide +kernel⟩

end Verifier

end Countersign
