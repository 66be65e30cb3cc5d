import Countersign.Proofs.Gate.Passage
import Countersign.Proofs.Verifier.Signed

/-!
# What rejections give away

In production a gate has one answer for all requests that it rejects, so that the
answer tells nothing of the cause. Elsewhere it adds the two headers of an echo to
the answer for a wrong signature, and nothing to any other.
-/

set_option autoImplicit false

namespace Countersign

def Refusal.isMismatch : Refusal → Bool
  | mismatch _ _ _ => true
  | _ => false

theorem Verifier.echo_of_verdict (v : Verifier) (now : Millis) (ledger : Option NonceLedger)
    (r : Http.Request) (body : Option Bytes) (why : Refusal)
    (h : (v.verify now ledger r body).1 = .refused why) :
    why.echo?.isSome = true ↔ v.policy.production = false ∧ why.isMismatch = true := by
  obtain ⟨c, hrefuses, _⟩ := v.refused_first now ledger r body why h
  have hexplained : ∀ t a,
      (explained v r body t a).isSome = true ↔ v.policy.production = false := by
    intro t a
    cases hp : v.policy.production <;> simp [explained, hp]
  cases hrefuses with
  | forged t a => simpa [Refusal.echo?, Refusal.isMismatch] using hexplained t a
  | unverifiable t a => simpa [Refusal.echo?, Refusal.isMismatch] using hexplained t a
  | untimely timestamp _ _ hcheck =>
    have hearly := check_timestamp_early _ now timestamp why hcheck
    have hmismatch : why.isMismatch = false := by
      cases why <;> first | rfl | cases hearly
    simp [Refusal.echo_early why hearly, hmismatch]
  | _ => simp [Refusal.echo?, Refusal.isMismatch]

namespace Gate

/-- All that a gate's answer can depend on. -/
structure Arrival where
  verifier : Verifier
  first : Millis
  second : Millis
  ledger : Option NonceLedger
  request : Http.Request
  body : Http.Body

namespace Arrival

variable (x : Arrival)

def passage : Passage :=
  (call x.verifier x.first x.second x.ledger x.request x.body).passage

def answer? : Option Http.Response :=
  match x.passage with
  | .forwarded _ _ _ => none
  | .rejected echo => some (rejection echo)

def Mismatched : Prop :=
  ∃ buffered passed why, x.verifier.skips x.request.method x.request.target.path = false ∧
    x.verifier.precheck x.first x.request = .ok () ∧
    buffer? x.verifier.policy x.request x.body = some (buffered, passed) ∧
    (x.verifier.verify x.second x.ledger x.request buffered).1 = .refused why ∧
    why.isMismatch = true

theorem answer_cases (a : Http.Response) (h : x.answer? = some a) :
    ∃ echo, x.passage = .rejected echo ∧ a = rejection echo := by
  unfold answer? at h
  split at h
  · cases h
  · next echo hpassage => exact ⟨echo, hpassage, (Option.some.inj h).symm⟩

/-- A rejection is explained just if the signature is wrong, and not in production. -/
theorem echo_iff (echo : Option Echo) (h : x.passage = .rejected echo) :
    echo.isSome = true ↔ x.verifier.policy.production = false ∧ x.Mismatched := by
  have hcourse := course x.verifier x.first x.second x.ledger x.request x.body
  have hpassage : (call x.verifier x.first x.second x.ledger x.request x.body).passage =
      .rejected echo := h
  rw [hpassage] at hcourse
  generalize (call x.verifier x.first x.second x.ledger x.request x.body).ledger = after at hcourse
  cases hcourse with
  | early why herror =>
    refine iff_of_false (by simp) ?_
    rintro ⟨_, _, _, _, _, hpre, _⟩
    cases herror.symm.trans hpre
  | unread hskip hpre hbuffer =>
    refine iff_of_false (by simp) ?_
    rintro ⟨_, _, _, _, _, _, hsome, _⟩
    cases hbuffer.symm.trans hsome
  | refused buffered passed why hskip hpre hbuffer hverdict =>
    rw [x.verifier.echo_of_verdict _ _ _ _ why hverdict]
    constructor
    · rintro ⟨hproduction, hmismatch⟩
      exact ⟨hproduction, buffered, passed, why, hskip, hpre, hbuffer, hverdict, hmismatch⟩
    · rintro ⟨hproduction, _, _, other, _, _, hother, hrefused, hmismatch⟩
      cases hbuffer.symm.trans hother
      cases hverdict.symm.trans hrefused
      exact ⟨hproduction, hmismatch⟩

end Arrival

/-- Any two rejections agree in all but the headers of an echo. A gate in production never adds
these; elsewhere it adds both to the answer for a wrong signature and none to any other. Whatever
they show is visible ASCII, so that none of them is left out. -/
theorem rejections_alike (x y : Arrival) (a b : Http.Response) (ha : x.answer? = some a)
    (hb : y.answer? = some b) :
    (x.verifier.policy.production = true → y.verifier.policy.production = true → a = b) ∧
    a.status = b.status ∧ a.body = b.body ∧
    a.headers.filter (fun p => p.1 ∉ echoNames) = b.headers.filter (fun p => p.1 ∉ echoNames) ∧
    (∀ name ∈ echoNames, name ∈ a.headers.map Prod.fst ↔
      x.verifier.policy.production = false ∧ x.Mismatched) ∧
    (∀ p ∈ a.headers, p.1 ∈ echoNames → ∀ c ∈ p.2.toList, Percent.IsPrintable c) ∧
    ∀ name text, (∀ c ∈ (echoValue text).toList, Percent.IsPrintable c) ∧
      echoHeader? name text = some (name, echoValue text) := by
  obtain ⟨echo, hx, rfl⟩ := x.answer_cases a ha
  obtain ⟨other, hy, rfl⟩ := y.answer_cases b hb
  refine ⟨?_, rfl, rfl, ?_, ?_, ?_, fun name text => ⟨?_, echo_header name text⟩⟩
  · intro hp hq
    have hnone : echo = none := by
      rw [← Option.not_isSome_iff_eq_none, x.echo_iff echo hx, hp]
      simp
    have hnone' : other = none := by
      rw [← Option.not_isSome_iff_eq_none, y.echo_iff other hy, hq]
      simp
    rw [hnone, hnone']
  · rw [rejection_plain, rejection_plain]
  · intro name hname
    rw [mem_echo_names echo name hname, x.echo_iff echo hx]
  · exact fun p hp hname c hc => shown_printable echo p hp hname c hc
  · exact echo_value_printable text

def forgedArrival : Arrival where
  verifier := ⟨.development, Verifier.sampleNames, (Directory.ofList [Verifier.plainAccount]).resolver⟩
  first := 0
  second := 0
  ledger := none
  request :=
    { headers :=
        [(Verifier.sampleNames.accessId, ⟨Utf8.ofString "app", by decide⟩),
          (Verifier.sampleNames.timestamp, ⟨Utf8.ofString "0", Verifier.zero_value⟩),
          (Verifier.sampleNames.nonce, ⟨Utf8.ofString "n", by decide⟩),
          (Verifier.sampleNames.sign, ⟨Utf8.ofString "s", by decide⟩)] }
  body := .ofBytes Verifier.sampleBody

def longArrival : Arrival :=
  { forgedArrival with
    verifier := { forgedArrival.verifier with policy := { maxBodyBytes := 2 } }
    request := { headers := Verifier.sampleRequest.headers ++ forgedArrival.request.headers } }

theorem rejections_alike_forged_long :
    ∃ a, forgedArrival.answer? = some a ∧ longArrival.answer? = some (rejection none) ∧
      a.status = (rejection none).status ∧ a.body = (rejection none).body ∧
      textHeader ∈ a.headers.map Prod.fst ∧ forgedArrival.Mismatched := by
  have hlong : longArrival.answer? = some (rejection none) := by decide +kernel
  have hsome : (forgedArrival.answer?.map fun a => decide (textHeader ∈ a.headers.map Prod.fst)) =
      some true := by decide +kernel
  obtain ⟨a, ha, htext⟩ := Option.map_eq_some_iff.mp hsome
  have htext' := of_decide_eq_true htext
  obtain ⟨_, hstatus, hbody, _, hnames, _⟩ :=
    rejections_alike forgedArrival longArrival a _ ha hlong
  have hmismatched := (hnames textHeader (by decide)).mp htext'
  exact ⟨a, ha, hlong, hstatus, hbody, htext', hmismatched.2⟩

end Gate

end Countersign
