import Countersign.Proofs.Http.Header
import Countersign.Proofs.Nonce.Ledger
import Mathlib.Data.List.Induction

/-!
# Histories of a ledger

Presentations arrive one after the other, whoever makes them, and each is
answered at its instant. The history with its answers alone tells what is
remembered: of each pair of access id and nonce, the presentations that were
found fresh, each until the end of the time that was asked for it then.
-/

set_option autoImplicit false

namespace Countersign.NonceLedger

structure Presentation where
  accessId : String
  nonce : String
  ttl : Duration
  instant : Nat
deriving DecidableEq, Repr

namespace Presentation

def SamePair (p q : Presentation) : Prop := p.accessId = q.accessId ∧ p.nonce = q.nonce

instance (p q : Presentation) : Decidable (p.SamePair q) := inferInstanceAs (Decidable (_ ∧ _))

/-- The end of the time for which a presentation is remembered if it is fresh. -/
def limit (p : Presentation) : Nat := p.instant + min p.ttl.nanos maxTtl.nanos

theorem same_pair_right (p q c : Presentation) (h : p.SamePair c) :
    q.SamePair p ↔ q.SamePair c := by
  rw [SamePair, SamePair, h.1, h.2]

end Presentation

def present (l : NonceLedger) (p : Presentation) : Bool × NonceLedger :=
  (l.atInstant p.instant).checkAndRecord p.accessId p.nonce p.ttl

def answered (l : NonceLedger) : List Presentation → List (Presentation × Bool)
  | [] => []
  | p :: ps => (p, (l.present p).1) :: answered (l.present p).2 ps

def after (l : NonceLedger) (ps : List Presentation) : NonceLedger :=
  ps.foldl (fun l p => (l.present p).2) l

theorem answered_append (l : NonceLedger) (ps qs : List Presentation) :
    l.answered (ps ++ qs) = l.answered ps ++ (l.after ps).answered qs := by
  induction ps generalizing l with
  | nil => rfl
  | cons p ps ih =>
    rw [List.cons_append, answered, answered, ih, List.cons_append]
    rfl

theorem answered_snoc (l : NonceLedger) (ps : List Presentation) (p : Presentation) :
    l.answered (ps ++ [p]) = l.answered ps ++ [(p, ((l.after ps).present p).1)] :=
  answered_append l ps [p]

theorem after_snoc (l : NonceLedger) (ps : List Presentation) (p : Presentation) :
    l.after (ps ++ [p]) = ((l.after ps).present p).2 := by
  simp [after]

theorem answered_presentations (l : NonceLedger) (ps : List Presentation) :
    (l.answered ps).map (·.1) = ps := by
  induction ps generalizing l with
  | nil => rfl
  | cons p ps ih => rw [answered, List.map_cons, ih]

theorem answered_by (l : NonceLedger) (ps : List Presentation) (instant : Nat)
    (h : ∀ p ∈ ps, p.instant ≤ instant) : ∀ r ∈ l.answered ps, r.1.instant ≤ instant := by
  intro r hr
  have hmem : r.1 ∈ (l.answered ps).map (·.1) := List.mem_map_of_mem hr
  rw [answered_presentations] at hmem
  exact h r.1 hmem

theorem answered_split (l : NonceLedger) (ps : List Presentation)
    (before later : List (Presentation × Bool)) (c : Presentation) (fresh : Bool)
    (h : l.answered ps = before ++ (c, fresh) :: later) :
    ps = before.map (·.1) ++ c :: later.map (·.1) ∧ l.answered (before.map (·.1)) = before ∧
      ((l.after (before.map (·.1))).present c).1 = fresh ∧
      ((l.after (before.map (·.1))).present c).2.answered (later.map (·.1)) = later := by
  have hps : ps = before.map (·.1) ++ c :: later.map (·.1) := by
    rw [← answered_presentations l ps, h, List.map_append, List.map_cons]
  rw [hps, answered_append, answered] at h
  have hlength : (l.answered (before.map (·.1))).length = before.length := by
    rw [← List.length_map (·.1), answered_presentations, List.length_map]
  obtain ⟨hbefore, hrest⟩ := List.append_inj h hlength
  obtain ⟨hc, hlater⟩ := List.cons.inj hrest
  exact ⟨hps, hbefore, (Prod.ext_iff.mp hc).2, hlater⟩

/-! ## What is remembered after a history -/

/-- A ledger remembers, now and later, the fresh presentations of a history whose time is not over. -/
def Recalls (l : NonceLedger) (run : List (Presentation × Bool)) : Prop :=
  ∀ c : Presentation, '\x1f' ∉ c.accessId.toList → (∀ r ∈ run, r.1.instant ≤ c.instant) →
    ((l.atInstant c.instant).isLive (key c.accessId c.nonce) = true ↔
      ∃ p, (p, true) ∈ run ∧ p.SamePair c ∧ c.instant < p.limit)

theorem present_fst (l : NonceLedger) (p : Presentation) :
    (l.present p).1 = !(l.atInstant p.instant).isLive (key p.accessId p.nonce) :=
  check_fst _ _ _ _

theorem present_live (l : NonceLedger) (p : Presentation) (k : String) (instant : Nat) :
    ((l.present p).2.atInstant instant).isLive k = true ↔
      if k = key p.accessId p.nonce ∧ (l.present p).1 = true then instant < p.limit
      else (l.atInstant instant).isLive k = true := by
  simp only [present_fst, Bool.not_eq_true']
  rw [present, live_check, Duration.nanos_min]
  rfl

theorem present_recalls (l : NonceLedger) (run : List (Presentation × Bool)) (p : Presentation)
    (hp : '\x1f' ∉ p.accessId.toList) (hforward : ∀ r ∈ run, r.1.instant ≤ p.instant)
    (h : l.Recalls run) : (l.present p).2.Recalls (run ++ [(p, (l.present p).1)]) := by
  intro c hc hle
  have hrun : ∀ r ∈ run, r.1.instant ≤ c.instant := fun r hr => hle r (by simp [hr])
  have hpc : p.instant ≤ c.instant := hle (p, (l.present p).1) (by simp)
  rw [present_live]
  by_cases hfresh : key c.accessId c.nonce = key p.accessId p.nonce ∧ (l.present p).1 = true
  · obtain ⟨hkey, htrue⟩ := hfresh
    obtain ⟨hid, hnonce⟩ := key_inj _ _ _ _ hc hp hkey
    -- What the history remembered of the pair was over when `p` was found fresh.
    have hover : ∀ q, (q, true) ∈ run → q.SamePair c → ¬c.instant < q.limit := by
      intro q hq hsame hlt
      rw [present_fst, Bool.not_eq_true', Bool.eq_false_iff] at htrue
      refine htrue ((h p hp hforward).mpr ⟨q, hq, ?_, by omega⟩)
      exact ⟨hsame.1.trans hid, hsame.2.trans hnonce⟩
    rw [if_pos ⟨hkey, htrue⟩, htrue]
    constructor
    · intro hlt
      exact ⟨p, by simp, ⟨hid.symm, hnonce.symm⟩, hlt⟩
    · rintro ⟨q, hq, hsame, hlt⟩
      rcases List.mem_append.mp hq with hq | hq
      · exact absurd hlt (hover q hq hsame)
      · obtain rfl : q = p := by simpa using hq
        exact hlt
  · rw [if_neg hfresh, h c hc hrun]
    constructor
    · rintro ⟨q, hq, hsame, hlt⟩
      exact ⟨q, List.mem_append_left _ hq, hsame, hlt⟩
    · rintro ⟨q, hq, hsame, hlt⟩
      rcases List.mem_append.mp hq with hq | hq
      · exact ⟨q, hq, hsame, hlt⟩
      · obtain ⟨rfl, htrue⟩ : q = p ∧ (l.present p).1 = true := by simpa using hq
        exact absurd ⟨by rw [hsame.1, hsame.2], htrue⟩ hfresh

theorem empty_recalls : Recalls {} [] := by
  intro c _ _
  simp [isLive, atInstant]

variable (ps : List Presentation)

theorem after_recalls (hforward : ps.Pairwise fun p q => p.instant ≤ q.instant)
    (hids : ∀ p ∈ ps, '\x1f' ∉ p.accessId.toList) :
    (after {} ps).Recalls (answered {} ps) := by
  induction ps using List.reverseRecOn with
  | nil => exact empty_recalls
  | append_singleton ps p ih =>
    obtain ⟨hbefore, _, hlast⟩ := List.pairwise_append.mp hforward
    have hrun := answered_by {} ps p.instant fun q hq => hlast q hq p (by simp)
    rw [after_snoc, answered_snoc]
    exact present_recalls _ _ p (hids p (by simp)) hrun
      (ih hbefore fun q hq => hids q (by simp [hq]))

theorem last_answer (c : Presentation)
    (hforward : (ps ++ [c]).Pairwise fun p q => p.instant ≤ q.instant)
    (hids : ∀ p ∈ ps ++ [c], '\x1f' ∉ p.accessId.toList) :
    ((after {} ps).present c).1 = true ↔
      ¬∃ p, (p, true) ∈ answered {} ps ∧ p.SamePair c ∧ c.instant < p.limit := by
  obtain ⟨hbefore, _, hlast⟩ := List.pairwise_append.mp hforward
  have hrun := answered_by {} ps c.instant fun q hq => hlast q hq c (by simp)
  have hrecalls := after_recalls ps hbefore fun q hq => hids q (by simp [hq])
  rw [present_fst, Bool.not_eq_true', Bool.eq_false_iff, Ne,
    hrecalls c (hids c (by simp)) hrun]

theorem refused_after (l : NonceLedger) (c : Presentation) (h : (l.present c).1 = false) :
    (l.present c).2 = l.atInstant c.instant := by
  rw [present_fst, Bool.not_eq_false'] at h
  rw [present, checkAndRecord, if_pos h]

theorem answered_at (l : NonceLedger) (instant : Nat) (qs : List Presentation) :
    (l.atInstant instant).answered qs = l.answered qs := by
  cases qs with
  | nil => rfl
  | cons q qs => rfl

/-- A refused presentation changes no later answer. -/
theorem answered_struck (l : NonceLedger) (before later : List (Presentation × Bool))
    (c : Presentation) (h : l.answered ps = before ++ (c, false) :: later) :
    l.answered ((before ++ later).map (·.1)) = before ++ later := by
  obtain ⟨_, hbefore, hrefused, hlater⟩ := answered_split l ps before later c false h
  rw [refused_after _ c hrefused, answered_at] at hlater
  rw [List.map_append, answered_append, hbefore, hlater]

/-- The presentations of one pair are answered as if there had been no others. -/
theorem answered_pair (c : Presentation)
    (hforward : ps.Pairwise fun p q => p.instant ≤ q.instant)
    (hids : ∀ p ∈ ps, '\x1f' ∉ p.accessId.toList) :
    (answered {} ps).filter (fun r => decide (r.1.SamePair c)) =
      answered {} (ps.filter fun p => decide (p.SamePair c)) := by
  induction ps using List.reverseRecOn with
  | nil => rfl
  | append_singleton ps p ih =>
    have hih := ih (List.pairwise_append.mp hforward).1 fun q hq => hids q (by simp [hq])
    rw [answered_snoc, List.filter_append, List.filter_append, hih]
    by_cases hp : p.SamePair c
    · have hsub : ((ps.filter fun p => decide (p.SamePair c)) ++ [p]).Sublist (ps ++ [p]) :=
        List.filter_sublist.append_right [p]
      have hown : ((after {} ps).present p).1 =
          ((after {} (ps.filter fun p => decide (p.SamePair c))).present p).1 := by
        rw [Bool.eq_iff_iff, last_answer ps p hforward hids,
          last_answer _ p (hforward.sublist hsub) (fun q hq => hids q (hsub.subset hq)), ← hih]
        refine not_congr (exists_congr fun q => ?_)
        rw [List.mem_filter, decide_eq_true_eq, and_assoc, Presentation.same_pair_right p q c hp]
        tauto
      rw [List.filter_cons_of_pos (by simpa using hp), List.filter_cons_of_pos (by simpa using hp),
        List.filter_nil, List.filter_nil, answered_snoc, hown]
    · simp [hp]

/-- A presentation is found fresh exactly if no earlier one of its pair that was found fresh is still
within the time that was asked for it then. Presentations that were refused move no such end, those
of other pairs have no part in it, and a text from a header holds no separator. -/
theorem fresh_iff_time_over (hforward : ps.Pairwise fun p q => p.instant ≤ q.instant)
    (hids : ∀ p ∈ ps, '\x1f' ∉ p.accessId.toList) :
    (∀ before c fresh later, answered {} ps = before ++ (c, fresh) :: later →
      (fresh = true ↔ ¬∃ p, (p, true) ∈ before ∧ p.SamePair c ∧
        c.instant < p.instant + min p.ttl.nanos maxTtl.nanos)) ∧
    (∀ before c later, answered {} ps = before ++ (c, false) :: later →
      answered {} ((before ++ later).map (·.1)) = before ++ later) ∧
    (∀ c ∈ ps, (answered {} ps).filter (fun r => decide (r.1.SamePair c)) =
      answered {} (ps.filter fun p => decide (p.SamePair c))) ∧
    (∀ (h : Http.Headers) name s, h.text? name = some s → '\x1f' ∉ s.toList) := by
  refine ⟨?_, fun before c later => answered_struck ps {} before later c,
    fun c _ => answered_pair ps c hforward hids, Http.Headers.no_separator_of_text⟩
  intro before c fresh later h
  obtain ⟨hps, hbefore, hfresh, _⟩ := answered_split {} ps before later c fresh h
  have hsub : (before.map (·.1) ++ [c]).Sublist ps := by
    rw [hps]
    exact (List.singleton_sublist.mpr (by simp)).append_left _
  rw [← hfresh, last_answer _ c (hforward.sublist hsub) fun p hp => hids p (hsub.subset hp), hbefore]
  rfl

/-- A pair with no time at all, one nanosecond, then the longest span that can be asked for; a replay
in between asks for longer, another id has the same nonce, and the last two presentations stand on
both sides of the end of the 365 days. -/
def sampleHistory : List Presentation :=
  [⟨"app", "n", Duration.zero, 0⟩, ⟨"app", "n", Duration.ofNanos 5, 0⟩,
    ⟨"app", "n", Duration.longest, 4⟩, ⟨"other", "n", Duration.ofNanos 5, 4⟩,
    ⟨"app", "n", Duration.longest, 5⟩, ⟨"app", "n", Duration.zero, 31536000000000004⟩,
    ⟨"app", "n", Duration.zero, 31536000000000005⟩]

theorem fresh_iff_time_over_sample :
    sampleHistory.Pairwise (fun p q => p.instant ≤ q.instant) ∧
    (∀ p ∈ sampleHistory, '\x1f' ∉ p.accessId.toList) ∧
    (answered {} sampleHistory).map (·.2) = [true, true, false, true, true, false, true] ∧
    ∃ before c, answered {} sampleHistory = before ++ [(c, true)] ∧
      ¬∃ p, (p, true) ∈ before ∧ p.SamePair c ∧
        c.instant < p.instant + min p.ttl.nanos maxTtl.nanos := by
  have hforward : sampleHistory.Pairwise fun p q => p.instant ≤ q.instant := by decide
  have hids : ∀ p ∈ sampleHistory, '\x1f' ∉ p.accessId.toList := by decide
  have hanswers : answered {} sampleHistory =
      sampleHistory.zip [true, true, false, true, true, false, true] := by decide +kernel
  have hlast : answered {} sampleHistory =
      (sampleHistory.zip [true, true, false, true, true, false]) ++
        [(⟨"app", "n", Duration.zero, 31536000000000005⟩, true)] := hanswers
  refine ⟨hforward, hids, by rw [hanswers]; rfl, _, _, hlast, ?_⟩
  exact ((fresh_iff_time_over sampleHistory hforward hids).1 _ _ true [] hlast).mp rfl

end Countersign.NonceLedger
