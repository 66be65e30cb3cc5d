import Countersign.Proofs.Gate.Echo
import Countersign.Proofs.Verifier.Early

/-!
# What passes a gate

A gate takes a request apart, checks its headers before it reads its body, and puts
it together again. It lets through what the verifier would let through, unless a
signed body is too long, and it changes nothing on the way.
-/

set_option autoImplicit false

namespace Countersign.Gate

variable (v : Verifier) (first second : Millis) (ledger : Option NonceLedger) (r : Http.Request)

/-- The courses that a request can take through a gate: what becomes of it, and of the ledger. -/
inductive Course (body : Http.Body) : Passage → Option NonceLedger → Prop where
  | exempt (h : v.skips r.method r.target.path = true) : Course body (.forwarded r body none) ledger
  | early (why : Refusal) (h : v.precheck first r = .error why) : Course body (.rejected none) ledger
  | unread (hskip : v.skips r.method r.target.path = false) (hpre : v.precheck first r = .ok ())
      (h : buffer? v.policy r body = none) : Course body (.rejected none) ledger
  | refused (buffered : Option Bytes) (passed : Http.Body) (why : Refusal)
      (hskip : v.skips r.method r.target.path = false) (hpre : v.precheck first r = .ok ())
      (hbuffer : buffer? v.policy r body = some (buffered, passed))
      (h : (v.verify second ledger r buffered).1 = .refused why) :
      Course body (.rejected why.echo?) (v.verify second ledger r buffered).2
  | verified (buffered : Option Bytes) (passed : Http.Body) (a : Account)
      (hskip : v.skips r.method r.target.path = false) (hpre : v.precheck first r = .ok ())
      (hbuffer : buffer? v.policy r body = some (buffered, passed))
      (h : (v.verify second ledger r buffered).1 = .verified a) :
      Course body (.forwarded r passed (some a)) (v.verify second ledger r buffered).2

theorem not_skipped (now : Millis) (body : Option Bytes)
    (hskip : v.skips r.method r.target.path = false) :
    (v.verify now ledger r body).1 ≠ .skipped := by
  intro h
  rw [Verifier.skipped_iff, ← Verifier.skips_iff, hskip] at h
  cases h

theorem course (body : Http.Body) : Course v first second ledger r body
    (call v first second ledger r body).passage (call v first second ledger r body).ledger := by
  unfold call
  by_cases hskip : v.skips r.method r.target.path = true
  · rw [if_pos hskip]
    exact .exempt hskip
  · have hskip' : v.skips r.method r.target.path = false := by simpa using hskip
    rw [if_neg hskip]
    cases hpre : v.precheck first r with
    | error why =>
      have hearly := ((Verifier.precheck_error_iff v first ledger r none why).mp hpre).2
      simp only [Refusal.echo_early why hearly]
      exact .early why hpre
    | ok u =>
      cases hbuffer : buffer? v.policy r body with
      | none => exact .unread hskip' hpre hbuffer
      | some p =>
        obtain ⟨buffered, passed⟩ := p
        cases hverdict : (v.verify second ledger r buffered).1 with
        | skipped => exact absurd hverdict (not_skipped v ledger r second buffered hskip')
        | verified a =>
          simp only [hverdict]
          exact .verified buffered passed a hskip' hpre hbuffer hverdict
        | refused why =>
          simp only [hverdict]
          exact .refused buffered passed why hskip' hpre hbuffer hverdict

/-! ## Complete bodies -/

variable (chunks : List Bytes)

def Fits (bytes : Bytes) : Prop :=
  Verifier.requiresBody r = true → bytes.length ≤ v.policy.maxBodyBytes.toNat

theorem buffer_unread (h : buffer? v.policy r ⟨chunks, false⟩ = none) :
    ¬ Fits v r chunks.flatten := by
  intro hfits
  unfold buffer? at h
  split at h
  · next hreads =>
    have hwhole : Http.Body.collect? v.policy.maxBodyBytes.toNat ⟨chunks, false⟩ =
        some chunks.flatten := Option.filter_eq_some_iff.mpr ⟨rfl, decide_eq_true (hfits hreads)⟩
    rw [hwhole] at h
    cases h
  · cases h

/-- Whether a complete body has been read or not, it is passed on, and the verifier has seen what
it looks at. -/
structure Buffered (buffered : Option Bytes) (passed : Http.Body) : Prop where
  fits : Fits v r chunks.flatten
  bytes : passed.bytes? = some chunks.flatten
  untouched : Verifier.requiresBody r = false → passed = ⟨chunks, false⟩
  seen : ∀ now ledger, v.verify now ledger r buffered = v.verify now ledger r (some chunks.flatten)

theorem buffer_complete (buffered : Option Bytes) (passed : Http.Body)
    (h : buffer? v.policy r ⟨chunks, false⟩ = some (buffered, passed)) :
    Buffered v r chunks buffered passed := by
  unfold buffer? at h
  split at h
  · next hreads =>
    simp only [Http.Body.collect?, Http.Body.bytes?, Bool.false_eq_true, if_false,
      Option.map_eq_some_iff, Option.filter_eq_some_iff, decide_eq_true_eq] at h
    obtain ⟨bytes, ⟨hbytes, hlength⟩, hpair⟩ := h
    cases hbytes
    cases hpair
    exact ⟨fun _ => hlength, by simp [Http.Body.ofBytes, Http.Body.bytes?],
      fun hnot => absurd hreads (by simp [hnot]), fun _ _ => rfl⟩
  · next hreads =>
    have hunread : Verifier.requiresBody r = false := by simpa using hreads
    cases h
    refine ⟨fun hyes => absurd hyes hreads, rfl, fun _ => rfl, fun now ledger => ?_⟩
    rw [v.verify_unread now ledger r (some chunks.flatten) hunread]

def Consulted : Prop :=
  v.skips r.method r.target.path = false ∧ v.precheck first r = .ok () ∧ Fits v r chunks.flatten

/-- A request that needs no signature, or that passes all the checks with its whole body. -/
def Admitted : Prop :=
  v.skips r.method r.target.path = true ∨
    (v.precheck first r = .ok () ∧ Fits v r chunks.flatten ∧
      ∀ why, (v.verify second ledger r (some chunks.flatten)).1 ≠ .refused why)

/-- The handler is called once, with the request as it came and the account that signed it. A body
that nobody had to read is passed on chunk by chunk. -/
def Delivered : Prop :=
  ∃ passed account,
    (∀ (σ ε : Type) (handler : Handler σ ε) (s : σ),
      serve handler s v first second ledger r ⟨chunks, false⟩ = handler s r passed account) ∧
    passed.bytes? = some chunks.flatten ∧
    (v.skips r.method r.target.path = true ∨ Verifier.requiresBody r = false →
      passed = ⟨chunks, false⟩) ∧
    ∀ a, account = some a ↔
      (v.verify second ledger r (some chunks.flatten)).1 = .verified a

/-- The handler is not called, and the answer explains what the verifier explains. -/
def TurnedAway : Prop :=
  ∃ echo,
    (∀ (σ ε : Type) (handler : Handler σ ε) (s : σ),
      serve handler s v first second ledger r ⟨chunks, false⟩ = (.ok (rejection echo), s)) ∧
    (rejection echo).status = 400 ∧
    (∀ name ∈ echoNames, name ∈ (rejection echo).headers.map Prod.fst ↔ echo.isSome = true) ∧
    ∀ e, echo = some e ↔ Consulted v first r chunks ∧
      ∃ why, (v.verify second ledger r (some chunks.flatten)).1 = .refused why ∧
        why.echo? = some e

theorem serve_forwarded (σ ε : Type) (handler : Handler σ ε) (s : σ) (body passed : Http.Body)
    (account : Option Account)
    (h : (call v first second ledger r body).passage = .forwarded r passed account) :
    serve handler s v first second ledger r body = handler s r passed account := by
  rw [serve, h]

theorem serve_rejected (σ ε : Type) (handler : Handler σ ε) (s : σ) (body : Http.Body)
    (echo : Option Echo)
    (h : (call v first second ledger r body).passage = .rejected echo) :
    serve handler s v first second ledger r body = (.ok (rejection echo), s) := by
  rw [serve, h]

theorem turned_away_of_rejected (echo : Option Echo)
    (h : (call v first second ledger r ⟨chunks, false⟩).passage = .rejected echo)
    (hecho : ∀ e, echo = some e ↔ Consulted v first r chunks ∧
      ∃ why, (v.verify second ledger r (some chunks.flatten)).1 = .refused why ∧
        why.echo? = some e) : TurnedAway v first second ledger r chunks :=
  ⟨echo, fun σ ε handler s => serve_rejected v first second ledger r σ ε handler s _ echo h, rfl,
    fun name hname => mem_echo_names echo name hname, hecho⟩

theorem not_admitted (hskip : v.skips r.method r.target.path = false)
    (h : ¬ Consulted v first r chunks) : ¬ Admitted v first second ledger r chunks := by
  rintro (hyes | ⟨hpre, hfits, _⟩)
  · rw [hskip] at hyes
    cases hyes
  · exact h ⟨hskip, hpre, hfits⟩

theorem turned_away_unasked (hskip : v.skips r.method r.target.path = false)
    (h : ¬ Consulted v first r chunks)
    (hpassage : (call v first second ledger r ⟨chunks, false⟩).passage = .rejected none) :
    ¬ Admitted v first second ledger r chunks ∧ TurnedAway v first second ledger r chunks := by
  refine ⟨not_admitted v first second ledger r chunks hskip h, ?_⟩
  apply turned_away_of_rejected v first second ledger r chunks none hpassage
  intro e
  exact iff_of_false (by simp) (fun hasked => h hasked.1)

theorem delivered_or_turned_away :
    (Admitted v first second ledger r chunks ∧ Delivered v first second ledger r chunks) ∨
      (¬ Admitted v first second ledger r chunks ∧
        TurnedAway v first second ledger r chunks) := by
  -- the passage and the ledger are made variables, so that the course can be taken apart
  have hcourse := course v first second ledger r ⟨chunks, false⟩
  generalize hpassage : (call v first second ledger r ⟨chunks, false⟩).passage = passage at hcourse
  generalize (call v first second ledger r ⟨chunks, false⟩).ledger = after at hcourse
  cases hcourse with
  | exempt hskip =>
    refine Or.inl ⟨Or.inl hskip, ⟨chunks, false⟩, none, ?_, rfl, fun _ => rfl, ?_⟩
    · exact fun σ ε handler s =>
        serve_forwarded v first second ledger r σ ε handler s _ _ none hpassage
    · intro a
      have hskipped := (Verifier.skipped_iff v second ledger r (some chunks.flatten)).mpr
        ((Verifier.skips_iff v r).mp hskip)
      simp [hskipped]
  | early why herror =>
    have hskip := ((Verifier.precheck_error v first r why).mp herror).1
    refine Or.inr (turned_away_unasked v first second ledger r chunks hskip ?_ hpassage)
    rintro ⟨_, hpre, _⟩
    cases herror.symm.trans hpre
  | unread hskip _ hbuffer =>
    refine Or.inr (turned_away_unasked v first second ledger r chunks hskip ?_ hpassage)
    exact fun hasked => buffer_unread v r chunks hbuffer hasked.2.2
  | refused buffered passed why hskip hpre hbuffer hverdict =>
    have hbuffered := buffer_complete v r chunks buffered passed hbuffer
    rw [hbuffered.seen] at hverdict
    refine Or.inr ⟨?_, ?_⟩
    · rintro (hyes | ⟨_, _, hnot⟩)
      · rw [hskip] at hyes
        cases hyes
      · exact hnot why hverdict
    · apply turned_away_of_rejected v first second ledger r chunks why.echo? hpassage
      intro e
      rw [hverdict]
      constructor
      · exact fun hecho => ⟨⟨hskip, hpre, hbuffered.fits⟩, why, rfl, hecho⟩
      · rintro ⟨_, other, hother, hecho⟩
        cases hother
        exact hecho
  | verified buffered passed a hskip hpre hbuffer hverdict =>
    have hbuffered := buffer_complete v r chunks buffered passed hbuffer
    rw [hbuffered.seen] at hverdict
    refine Or.inl ⟨Or.inr ⟨hpre, hbuffered.fits, ?_⟩, passed, some a, ?_, hbuffered.bytes, ?_, ?_⟩
    · simp [hverdict]
    · exact fun σ ε handler s =>
        serve_forwarded v first second ledger r σ ε handler s _ _ (some a) hpassage
    · rintro (hyes | hunread)
      · rw [hskip] at hyes
        cases hyes
      · exact hbuffered.untouched hunread
    · intro b
      rw [hverdict]
      simp

theorem ledger_after :
    (Consulted v first r chunks → (call v first second ledger r ⟨chunks, false⟩).ledger =
      (v.verify second ledger r (some chunks.flatten)).2) ∧
    (¬ Consulted v first r chunks →
      (call v first second ledger r ⟨chunks, false⟩).ledger = ledger) := by
  have hcourse := course v first second ledger r ⟨chunks, false⟩
  generalize (call v first second ledger r ⟨chunks, false⟩).passage = passage at hcourse
  generalize (call v first second ledger r ⟨chunks, false⟩).ledger = after at hcourse ⊢
  cases hcourse with
  | exempt hskip =>
    refine ⟨fun hasked => ?_, fun _ => rfl⟩
    rw [hasked.1] at hskip
    cases hskip
  | early why herror =>
    refine ⟨fun hasked => ?_, fun _ => rfl⟩
    cases herror.symm.trans hasked.2.1
  | unread hskip _ hbuffer =>
    exact ⟨fun hasked => absurd hasked.2.2 (buffer_unread v r chunks hbuffer), fun _ => rfl⟩
  | refused buffered passed why hskip hpre hbuffer hverdict =>
    have hbuffered := buffer_complete v r chunks buffered passed hbuffer
    exact ⟨fun _ => by rw [hbuffered.seen],
      fun hnot => absurd ⟨hskip, hpre, hbuffered.fits⟩ hnot⟩
  | verified buffered passed a hskip hpre hbuffer hverdict =>
    have hbuffered := buffer_complete v r chunks buffered passed hbuffer
    exact ⟨fun _ => by rw [hbuffered.seen],
      fun hnot => absurd ⟨hskip, hpre, hbuffered.fits⟩ hnot⟩

/-- A gate lets through what its verifier lets through: what becomes of a request with a complete
body, what the verifier remembers of it, and that the first checks are those of the verifier. -/
theorem call_exact :
    (Admitted v first second ledger r chunks → Delivered v first second ledger r chunks) ∧
    (¬ Admitted v first second ledger r chunks → TurnedAway v first second ledger r chunks) ∧
    (Consulted v first r chunks → (call v first second ledger r ⟨chunks, false⟩).ledger =
      (v.verify second ledger r (some chunks.flatten)).2) ∧
    (¬ Consulted v first r chunks →
      (call v first second ledger r ⟨chunks, false⟩).ledger = ledger) ∧
    ∀ why, v.precheck first r = .error why ↔
      (v.verify first ledger r (some chunks.flatten)).1 = .refused why ∧ why.isEarly = true := by
  have hfate := delivered_or_turned_away v first second ledger r chunks
  obtain ⟨hasked, hunasked⟩ := ledger_after v first second ledger r chunks
  refine ⟨?_, ?_, hasked, hunasked, v.precheck_error_iff first ledger r _⟩
  · intro hadmitted
    rcases hfate with ⟨_, hdelivered⟩ | ⟨hnot, _⟩
    · exact hdelivered
    · exact absurd hadmitted hnot
  · intro hnot
    rcases hfate with ⟨hadmitted, _⟩ | ⟨_, hturned⟩
    · exact absurd hadmitted hnot
    · exact hturned

end Countersign.Gate
