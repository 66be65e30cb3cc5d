import Countersign.Proofs.Http.Header
import Countersign.Proofs.Verifier.Replay

/-!
# Callers do not disturb one another

A ledger is changed by verified calls alone, and each of them adds to what is
remembered of its own access id. So the calls of one id are answered as if the
refused calls, the skipped ones and those of all other ids had never been made.
-/

set_option autoImplicit false

namespace Countersign

def Call.accessId? (n : HeaderNames) (c : Call) : Option String :=
  c.request.headers.text? n.accessId

namespace Verifier

inductive Alike (accessId : String) : Option NonceLedger → Option NonceLedger → Prop where
  | absent : Alike accessId none none
  | present (l m : NonceLedger) (h : NonceLedger.Alike accessId l m) :
      Alike accessId (some l) (some m)

variable (v : Verifier) (accessId : String)

theorem alike_refl (ledger : Option NonceLedger) : Alike accessId ledger ledger := by
  cases ledger with
  | none => exact .absent
  | some l => exact .present l l fun _ _ => rfl

variable {accessId}

theorem alike_symm {ledger other : Option NonceLedger} (h : Alike accessId ledger other) :
    Alike accessId other ledger := by
  cases h with
  | absent => exact .absent
  | present l m h => exact .present m l fun nonce instant => (h nonce instant).symm

theorem alike_trans {ledger other third : Option NonceLedger} (h : Alike accessId ledger other)
    (h' : Alike accessId other third) : Alike accessId ledger third := by
  cases h with
  | absent => exact h'
  | present l m h =>
    cases h' with
    | present _ k h' =>
      exact .present l k fun nonce instant => (h nonce instant).trans (h' nonce instant)

theorem alike_at (ledger : Option NonceLedger) (instant : Nat) :
    Alike accessId ledger (ledger.map (·.atInstant instant)) := by
  cases ledger with
  | none => exact .absent
  | some l => exact .present _ _ fun _ _ => rfl

/-! ## One call -/

theorem record_refused (ledger : Option NonceLedger) (t : SignedHeaders)
    (h : (v.recordNonce ledger t).1 = false) : (v.recordNonce ledger t).2 = ledger := by
  cases ledger with
  | none => rfl
  | some l =>
    by_cases hl : l.isLive (NonceLedger.key t.accessId t.nonce) = true
    · simp [recordNonce, NonceLedger.checkAndRecord, hl]
    · simp [recordNonce, NonceLedger.checkAndRecord, hl] at h

/-- Only a verified request changes the ledger. -/
theorem unverified_ledger (now : Millis) (ledger : Option NonceLedger) (r : Http.Request)
    (body : Option Bytes) (h : ∀ a, (v.verify now ledger r body).1 ≠ .verified a) :
    (v.verify now ledger r body).2 = ledger := by
  rcases verify_cases v now r body with ⟨verdict, _, hverify⟩ | ⟨t, a, _, _, hverify⟩
  · rw [hverify]
  · rw [hverify]
    rw [hverify] at h
    apply record_refused v ledger t
    rw [Bool.eq_false_iff]
    intro hfresh
    exact h a (if_pos hfresh)

theorem unverified_step (ledger : Option NonceLedger) (c : Call)
    (h : ∀ a, (v.step ledger c).1 ≠ .verified a) :
    (v.step ledger c).2 = ledger.map (·.atInstant c.instant) :=
  unverified_ledger v _ _ _ _ h

theorem foreign_record (hid : '\x1f' ∉ accessId.toList) (ledger : Option NonceLedger)
    (t : SignedHeaders) (ht : '\x1f' ∉ t.accessId.toList) (hne : accessId ≠ t.accessId) :
    Alike accessId ledger (v.recordNonce ledger t).2 := by
  cases ledger with
  | none => exact .absent
  | some l =>
    exact .present _ _ (NonceLedger.check_other l accessId t.accessId t.nonce v.policy.replayTtl
      hid ht hne)

theorem foreign_step (hid : '\x1f' ∉ accessId.toList) (ledger : Option NonceLedger) (c : Call)
    (hc : c.accessId? v.names ≠ some accessId) : Alike accessId ledger (v.step ledger c).2 := by
  have hat : Alike accessId ledger (ledger.map (·.atInstant c.instant)) := alike_at ledger c.instant
  rcases verify_ledger v c.now (ledger.map (·.atInstant c.instant)) c.request c.body with
    hsame | ⟨t, ht, hrecord⟩
  · rw [step, hsame]
    exact hat
  · have hread := ((signed_headers_ok v c.now _ t).mp ht).1.accessId
    have hne : accessId ≠ t.accessId := by
      rintro rfl
      exact hc hread
    rw [step, hrecord]
    have ht := Http.Headers.no_separator_of_text _ _ _ hread
    exact alike_trans hat (foreign_record v hid _ t ht hne)

theorem own_record (l m : NonceLedger) (t : SignedHeaders) (hnow : l.now = m.now)
    (h : NonceLedger.Alike t.accessId l m) :
    (v.recordNonce (some l) t).1 = (v.recordNonce (some m) t).1 ∧
      Alike t.accessId (v.recordNonce (some l) t).2 (v.recordNonce (some m) t).2 := by
  obtain ⟨hfresh, halike⟩ :=
    NonceLedger.check_alike l m t.accessId t.nonce v.policy.replayTtl hnow h
  exact ⟨hfresh, .present _ _ halike⟩

theorem own_step (ledger other : Option NonceLedger) (c : Call)
    (hc : c.accessId? v.names = some accessId) (h : Alike accessId ledger other) :
    (v.step ledger c).1 = (v.step other c).1 ∧
      Alike accessId (v.step ledger c).2 (v.step other c).2 := by
  cases h with
  | absent => exact ⟨rfl, alike_refl accessId _⟩
  | present l m h =>
    have hat : Alike accessId (some (l.atInstant c.instant)) (some (m.atInstant c.instant)) :=
      .present _ _ fun nonce instant => h nonce instant
    rw [step, step, Option.map_some, Option.map_some]
    rcases verify_cases v c.now c.request c.body with
      ⟨verdict, _, hverify⟩ | ⟨t, a, ht, _, hverify⟩
    · rw [hverify, hverify]
      exact ⟨rfl, hat⟩
    · have hread := ((signed_headers_ok v c.now _ t).mp ht).1.accessId
      obtain rfl := Option.some.inj (hread.symm.trans hc)
      obtain ⟨hfresh, halike⟩ :=
        own_record v (l.atInstant c.instant) (m.atInstant c.instant) t rfl
          fun nonce instant => h nonce instant
      rw [hverify, hverify, hfresh]
      exact ⟨rfl, halike⟩

/-! ## Runs of which some calls are struck out -/

def remaining (run : List (Call × Bool)) : List Call := (run.filter (·.2)).map (·.1)

theorem remaining_append (xs ys : List (Call × Bool)) :
    remaining (xs ++ ys) = remaining xs ++ remaining ys := by
  simp [remaining]

/-- A call that is of no matter to an access id, with the ledger as it is. -/
def Irrelevant (accessId : String) (ledger : Option NonceLedger) (c : Call) : Prop :=
  c.accessId? v.names ≠ some accessId ∨ ∀ a, (v.step ledger c).1 ≠ .verified a

theorem irrelevant_step (hid : '\x1f' ∉ accessId.toList) (ledger : Option NonceLedger) (c : Call)
    (h : v.Irrelevant accessId ledger c) : Alike accessId ledger (v.step ledger c).2 := by
  rcases h with hforeign | hunverified
  · exact foreign_step v hid ledger c hforeign
  · rw [unverified_step v ledger c hunverified]
    exact alike_at ledger c.instant

theorem both_step (hid : '\x1f' ∉ accessId.toList) (ledger other : Option NonceLedger) (c : Call)
    (h : Alike accessId ledger other) :
    Alike accessId (v.step ledger c).2 (v.step other c).2 := by
  by_cases hc : c.accessId? v.names = some accessId
  · exact (own_step v ledger other c hc h).2
  · have hleft := foreign_step v hid ledger c hc
    have hright := foreign_step v hid other c hc
    exact alike_trans (alike_symm hleft) (alike_trans h hright)

/-- A run and what remains of it remember the same of an id if all that is struck out is
irrelevant to it. -/
theorem run_alike (hid : '\x1f' ∉ accessId.toList) (run : List (Call × Bool))
    (ledger other : Option NonceLedger) (h : Alike accessId ledger other)
    (hstruck : ∀ before c after, run = before ++ (c, false) :: after →
      v.Irrelevant accessId (v.ledgerAfter ledger (before.map (·.1))) c) :
    Alike accessId (v.ledgerAfter ledger (run.map (·.1)))
      (v.ledgerAfter other (remaining run)) := by
  induction run generalizing ledger other with
  | nil => exact h
  | cons entry run ih =>
    obtain ⟨c, stays⟩ := entry
    have hrest : ∀ before d after, run = before ++ (d, false) :: after →
        v.Irrelevant accessId (v.ledgerAfter (v.step ledger c).2 (before.map (·.1))) d := by
      rintro before d after rfl
      exact hstruck ((c, stays) :: before) d after rfl
    cases stays with
    | true => exact ih _ _ (both_step v hid ledger other c h) hrest
    | false =>
      have hc := irrelevant_step v hid ledger c (hstruck [] c run rfl)
      exact ih _ _ (alike_trans (alike_symm hc) h) hrest

theorem struck_irrelevant (ledger : Option NonceLedger) (run before after : List (Call × Bool))
    (c : Call) (hrun : run = before ++ (c, false) :: after)
    (h : c.accessId? v.names ≠ some accessId ∨
      ∀ a, (v.verdicts ledger (run.map (·.1)))[before.length]? ≠ some (.verified a)) :
    v.Irrelevant accessId (v.ledgerAfter ledger (before.map (·.1))) c := by
  rcases h with hforeign | hunverified
  · exact Or.inl hforeign
  · refine Or.inr fun a ha => hunverified a ?_
    have hc : (run.map (·.1))[before.length]? = some c := by simp [hrun]
    have hbefore : (run.map (·.1)).take before.length = before.map (·.1) := by simp [hrun]
    rw [verdicts_get v ledger _ _ c hc, hbefore, ha]

/-- The calls of an access id are answered as if others had not been made: whatever is struck out of
a run, as long as each call that is struck out was not verified or is of another id. And no call
but a verified one changes the ledger. -/
theorem answered_without_struck (ledger : Option NonceLedger) (run : List (Call × Bool))
    (hstruck : ∀ (i : Nat) (c : Call), run[i]? = some (c, false) →
      c.accessId? v.names ≠ some accessId ∨
        ∀ a, (v.verdicts ledger (run.map (·.1)))[i]? ≠ some (.verified a)) :
    (∀ (i : Nat) (c : Call), run[i]? = some (c, true) → c.accessId? v.names = some accessId →
      ∃ verdict, (v.verdicts ledger (run.map (·.1)))[i]? = some verdict ∧
        (v.verdicts ledger (remaining run))[(remaining (run.take i)).length]? = some verdict) ∧
    ∀ (i : Nat) (c : Call), (run.map (·.1))[i]? = some c →
      (∀ a, (v.verdicts ledger (run.map (·.1)))[i]? ≠ some (.verified a)) →
      v.ledgerAfter ledger ((run.map (·.1)).take (i + 1)) =
        (v.ledgerAfter ledger ((run.map (·.1)).take i)).map (·.atInstant c.instant) := by
  constructor
  · intro i c hi hc
    have hid : '\x1f' ∉ accessId.toList := Http.Headers.no_separator_of_text _ _ _ hc
    have hsplit := split_at run i (c, true) hi
    have hbefore : ∀ before d after, run.take i = before ++ (d, false) :: after →
        v.Irrelevant accessId (v.ledgerAfter ledger (before.map (·.1))) d := by
      intro before d after htake
      have hrun : run = before ++ (d, false) :: (after ++ (c, true) :: run.drop (i + 1)) := by
        rw [htake] at hsplit
        simpa using hsplit
      have hd : run[before.length]? = some (d, false) := by rw [hrun]; simp
      exact struck_irrelevant v ledger run before _ d hrun (hstruck before.length d hd)
    have halike := run_alike v hid (run.take i) ledger ledger (alike_refl accessId ledger) hbefore
    have hfull : (run.map (·.1))[i]? = some c := by simp [hi]
    have hremaining : remaining run =
        remaining (run.take i) ++ c :: remaining (run.drop (i + 1)) := by
      conv_lhs => rw [hsplit]
      exact remaining_append _ _
    have hplace : (remaining run)[(remaining (run.take i)).length]? = some c := by
      rw [hremaining]
      simp
    refine ⟨_, verdicts_get v ledger _ i c hfull, ?_⟩
    rw [verdicts_get v ledger _ _ c hplace, hremaining, List.take_left, ← List.map_take,
      (own_step v _ _ c hc halike).1]
  · intro i c hi h
    rw [ledger_after_take v ledger _ i c hi]
    apply unverified_step
    intro a ha
    exact h a (by rw [verdicts_get v ledger _ i c hi, ha])

def otherAccount : Account := ⟨"web", none, .secret "word", .hmacSha256⟩

def otherCall : Call where
  now := 0
  instant := 0
  request :=
    { headers :=
        [(sampleNames.accessId, ⟨Utf8.ofString otherAccount.accessId, by decide⟩),
          (sampleNames.timestamp, ⟨Utf8.ofString "0", zero_value⟩),
          (sampleNames.nonce, ⟨Utf8.ofString sampleNonce.text, sample_nonce_value⟩),
          (sampleNames.sign,
            ⟨Utf8.ofString "wG+TFqsP9OS0OX0klHf1gPGAzMCvfaLmTAEN5rcuZ3E=", by decide⟩)] }
  body := none

def unsignedCall : Call :=
  { sampleCall 0 0 with request := { headers := (sampleCall 0 0).request.headers.take 3 } }

def sharedVerifier : Verifier :=
  ⟨{}, sampleNames, (Directory.ofList [plainAccount, otherAccount]).resolver⟩

theorem answered_without_struck_same_nonce :
    sharedVerifier.verdicts (some {}) [otherCall, unsignedCall, sampleCall 0 0] =
      [.verified otherAccount, .refused .missingSignature, .verified plainAccount] ∧
    (sharedVerifier.verdicts (some {}) [sampleCall 0 0])[0]? = some (.verified plainAccount) := by
  have hall : sharedVerifier.verdicts (some {}) [otherCall, unsignedCall, sampleCall 0 0] =
      [.verified otherAccount, .refused .missingSignature, .verified plainAccount] := by
    decide +kernel
  have hstruck : ∀ (i : Nat) (c : Call),
      [(otherCall, false), (unsignedCall, false), (sampleCall 0 0, true)][i]? = some (c, false) →
      c.accessId? sharedVerifier.names ≠ some plainAccount.accessId ∨ ∀ a, (sharedVerifier.verdicts
        (some {}) [otherCall, unsignedCall, sampleCall 0 0])[i]? ≠ some (.verified a) := by
    intro i c hi
    rw [hall]
    match i, hi with
    | 0, rfl => exact Or.inl (by decide +kernel)
    | 1, rfl => exact Or.inr fun a ha => by cases ha
    | 2, hi => cases hi
    | n + 3, hi => cases hi
  obtain ⟨verdict, hbefore, hafter⟩ := (answered_without_struck sharedVerifier (some {})
    [(otherCall, false), (unsignedCall, false), (sampleCall 0 0, true)] hstruck).1 2
      (sampleCall 0 0) rfl (by decide +kernel)
  have hverdict : (sharedVerifier.verdicts (some {}) [otherCall, unsignedCall, sampleCall 0 0])[2]? =
      some verdict := hbefore
  rw [hall] at hverdict
  cases hverdict
  exact ⟨hall, hafter⟩

end Verifier

end Countersign
