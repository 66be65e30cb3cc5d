import Countersign.Proofs.Binding.Answers
import Countersign.Proofs.Binding.Memory
import Mathlib.Data.List.Perm.Subperm

/-!
# A store in memory and its mirror on a server

A server holds the bindings of a store in memory, and in the set of a subject the
ids that are bound to it, beside some that were left behind. Every operation keeps
this, and says who is left behind after it, except the removal of a subject whose
set names an id that is bound to another one.
-/

set_option autoImplicit false

namespace Countersign.SharedBindings

variable {root : String}

/-! ## Sets and bindings after a round trip -/

theorem put_listed (srv : Server) (hsrv : Typed root srv) (id subject : String) (ttl : Duration)
    (s : String) : listed root (srv.runAll (putCommands root id subject ttl)).2 s =
      if s = subject ∧ id ∉ listed root srv s then listed root srv s ++ [id]
      else listed root srv s := by
  by_cases hs : s = subject
  · subst hs
    cases hslot : srv.slot? (subjectKey root s) with
    | none => simp [listed, put_slot srv hsrv, hslot, joined]
    | some x =>
      obtain ⟨ids, t, rfl⟩ := hsrv.subject s x hslot
      by_cases hid : id ∈ ids <;> simp [listed, put_slot srv hsrv, hslot, joined, hid]
  · have hother := put_other srv id subject ttl _ (token_key_ne_subject root id s).symm
      (fun h => hs ((subject_key_inj root s subject).mp h))
    rw [if_neg (fun h => hs h.1), listed, hother, listed]

theorem put_holder_other (srv : Server) (id subject : String) (ttl : Duration) (x : String)
    (hx : x ≠ id) :
    holder? root (srv.runAll (putCommands root id subject ttl)).2 x = holder? root srv x := by
  rw [holder?, put_other srv id subject ttl _ (fun h => hx ((token_key_inj root x id).mp h))
    (token_key_ne_subject root x subject), holder?]

theorem unbind_listed (srv : Server) (hsrv : Typed root srv) (id : String) (held : Option String)
    (s : String) : listed root (srv.runAll (unbindCommands root id held)).2 s =
      if held = some s then (listed root srv s).filter (· ≠ id) else listed root srv s := by
  rw [listed, unbind_set]
  by_cases hheld : held = some s
  · rw [if_pos hheld, if_pos hheld]
    cases hslot : srv.slot? (subjectKey root s) with
    | none => simp [listed, hslot, Server.shrunk]
    | some x =>
      obtain ⟨ids, t, rfl⟩ := hsrv.subject s x hslot
      by_cases hempty : id ∈ ids ∧ ids.filter (· ≠ id) = []
      · simp only [listed, hslot, Server.shrunk, if_pos hempty]
        exact hempty.2.symm
      · simp only [listed, hslot, Server.shrunk, if_neg hempty]
  · rw [if_neg hheld, if_neg hheld, listed]

theorem unbind_holder (srv : Server) (id : String) (held : Option String) (x : String) :
    holder? root (srv.runAll (unbindCommands root id held)).2 x =
      if x = id then none else holder? root srv x := by
  by_cases hx : x = id
  · rw [if_pos hx, hx, holder?, unbind_token]
  · rw [if_neg hx, holder?, unbind_token_other srv id held x hx, holder?]

theorem clear_listed_other (srv : Server) (subject : String) (ids : List String) (s : String)
    (hs : s ≠ subject) :
    listed root (srv.runAll (clearCommands root subject ids)).2 s = listed root srv s := by
  rw [listed, clear_set, if_neg hs, listed]

/-! ## The mirror -/

/-- The server binds what the store in memory binds, and a set names the ids of its subject and those
that were left behind in it. -/
structure Mirrors (root : String) (m : MemoryBindings) (srv : Server)
    (left : String → String → Prop) : Prop where
  typed : Typed root srv
  distinct : m.Distinct
  held : ∀ id, holder? root srv id = m.bound? id
  named : ∀ id s, id ∈ listed root srv s ↔ m.bound? id = some s ∨ left id s
  nodup : ∀ s, (listed root srv s).Nodup
  apart : ∀ id s, left id s → m.bound? id ≠ some s

variable {m : MemoryBindings} {srv : Server} {left : String → String → Prop}

theorem empty_mirrors : Mirrors root {} {} fun _ _ => False where
  typed := ⟨fun _ _ h => (Option.some_ne_none _ h.symm).elim,
    fun _ _ h => (Option.some_ne_none _ h.symm).elim⟩
  distinct := List.nodup_nil
  held _ := rfl
  named id s := by simp [listed, Server.slot?, MemoryBindings.bound?]
  nodup _ := List.nodup_nil
  apart _ _ h := h.elim

theorem mirrors_congr (h : Mirrors root m srv left) (left' : String → String → Prop)
    (hleft : ∀ id s, left' id s ↔ left id s) : Mirrors root m srv left' where
  typed := h.typed
  distinct := h.distinct
  held := h.held
  named id s := (h.named id s).trans (or_congr_right (hleft id s).symm)
  nodup := h.nodup
  apart id s hl := h.apart id s ((hleft id s).mp hl)

theorem mirrors_of_slots (h : Mirrors root m srv left) (m' : MemoryBindings) (srv' : Server)
    (hentries : m'.entries = m.entries) (hslots : ∀ k, srv'.slot? k = srv.slot? k) :
    Mirrors root m' srv' left := by
  have hbound : ∀ id, m'.bound? id = m.bound? id := by
    intro id
    rw [MemoryBindings.bound?, hentries, MemoryBindings.bound?]
  have hheld : ∀ id, holder? root srv' id = holder? root srv id := by
    intro id
    rw [holder?, hslots, holder?]
  have hlisted : ∀ s, listed root srv' s = listed root srv s := by
    intro s
    rw [listed, hslots, listed]
  constructor
  · exact ⟨fun id x hx => h.typed.token id x ((hslots _).symm.trans hx),
      fun s x hx => h.typed.subject s x ((hslots _).symm.trans hx)⟩
  · rw [MemoryBindings.Distinct, hentries]
    exact h.distinct
  · intro id
    rw [hheld, hbound, h.held]
  · intro id s
    rw [hlisted, hbound, h.named]
  · intro s
    rw [hlisted]
    exact h.nodup s
  · intro id s hl
    rw [hbound]
    exact h.apart id s hl

theorem put_mirrors (h : Mirrors root m srv left) (b : Binding) (ttl : Duration) :
    Mirrors root (m.place b) (srv.runAll (putCommands root b.id b.subject ttl)).2 fun id s =>
      (id = b.id ∧ s ≠ b.subject ∧ m.bound? id = some s) ∨
        (left id s ∧ ¬ (id = b.id ∧ s = b.subject)) where
  typed := put_typed srv h.typed b.id b.subject ttl
  distinct := MemoryBindings.place_distinct m h.distinct b
  held id := by
    rw [MemoryBindings.bound_place]
    by_cases hid : id = b.id
    · rw [if_pos hid, hid, put_holder]
    · rw [if_neg hid, put_holder_other srv b.id b.subject ttl id hid, h.held]
  named id s := by
    have hmem : id ∈ listed root (srv.runAll (putCommands root b.id b.subject ttl)).2 s ↔
        id ∈ listed root srv s ∨ (id = b.id ∧ s = b.subject) := by
      rw [put_listed srv h.typed]
      split
      · next hnew => simp [hnew.1]
      · next hold =>
        constructor
        · exact Or.inl
        · rintro (hin | ⟨rfl, hs⟩)
          · exact hin
          · exact Classical.byContradiction fun hnot => hold ⟨hs, hnot⟩
    rw [hmem, h.named, MemoryBindings.bound_place]
    by_cases hid : id = b.id
    · subst hid
      by_cases hs : s = b.subject
      · simp [hs]
      · simp [hs, Ne.symm hs]
    · simp [hid]
  nodup s := by
    rw [put_listed srv h.typed]
    split
    · next hnew =>
      refine List.nodup_append.mpr ⟨h.nodup s, List.nodup_singleton _, ?_⟩
      intro x hx y hy heq
      rw [List.mem_singleton.mp hy] at heq
      exact hnew.2 (heq ▸ hx)
    · exact h.nodup s
  apart id s := by
    rw [MemoryBindings.bound_place]
    rintro (⟨hid, hs, _⟩ | ⟨hl, hnew⟩)
    · rw [if_pos hid]
      exact fun heq => hs (Option.some.inj heq).symm
    · by_cases hid : id = b.id
      · rw [if_pos hid]
        exact fun heq => hnew ⟨hid, (Option.some.inj heq).symm⟩
      · rw [if_neg hid]
        exact h.apart id s hl

theorem unbind_mirrors (h : Mirrors root m srv left) (id : String) :
    Mirrors root (m.erase id) (srv.runAll (unbindCommands root id (holder? root srv id))).2 left where
  typed := unbind_typed srv h.typed id _
  distinct := MemoryBindings.erase_distinct m h.distinct id
  held x := by rw [unbind_holder, MemoryBindings.bound_erase, h.held]
  named x s := by
    have hmem : x ∈ listed root (srv.runAll (unbindCommands root id (holder? root srv id))).2 s ↔
        x ∈ listed root srv s ∧ ¬ (x = id ∧ m.bound? id = some s) := by
      rw [unbind_listed srv h.typed, h.held]
      by_cases hs : m.bound? id = some s <;> simp [hs]
    rw [hmem, h.named, MemoryBindings.bound_erase]
    by_cases hx : x = id
    · subst hx
      -- only the set of the subject that the id is bound to loses the id
      by_cases hs : m.bound? x = some s
      · have hnot : ¬ left x s := fun hl => h.apart x s hl hs
        simp [hs, hnot]
      · simp [hs]
    · simp [hx]
  nodup s := by
    rw [unbind_listed srv h.typed]
    split
    · exact (h.nodup s).filter _
    · exact h.nodup s
  apart x s hl := by
    rw [MemoryBindings.bound_erase]
    split
    · simp
    · exact h.apart x s hl

/-- The removal of a subject takes away what is named in its set, so nothing named there may be
bound to another subject. -/
theorem clear_mirrors (h : Mirrors root m srv left) (subject : String)
    (hnone : ∀ id other, left id subject → m.bound? id ≠ some other) :
    Mirrors root (m.eraseSubject subject)
      (srv.runAll (clearCommands root subject (listed root srv subject))).2
      fun id s => left id s ∧ s ≠ subject where
  typed := clear_typed srv h.typed subject _
  distinct := MemoryBindings.erase_subject_distinct m h.distinct subject
  held id := by
    rw [clear_holder, MemoryBindings.bound_erase_subject m h.distinct, h.held]
    by_cases hid : m.bound? id = some subject
    · rw [if_pos hid, if_pos ((h.named id subject).mpr (Or.inl hid))]
    · rw [if_neg hid]
      split
      · next hin =>
        have hleft := ((h.named id subject).mp hin).resolve_left hid
        exact (Option.eq_none_iff_forall_ne_some.mpr fun other => hnone id other hleft).symm
      · rfl
  named id s := by
    rw [MemoryBindings.bound_erase_subject m h.distinct]
    by_cases hs : s = subject
    · subst hs
      rw [clear_listed]
      by_cases hid : m.bound? id = some s <;> simp [hid]
    · rw [clear_listed_other srv subject _ s hs, h.named]
      by_cases hid : m.bound? id = some subject
      · simp [hid, hs, Ne.symm hs]
      · simp [hid, hs]
  nodup s := by
    by_cases hs : s = subject
    · rw [hs, clear_listed]
      exact List.nodup_nil
    · rw [clear_listed_other srv subject _ s hs]
      exact h.nodup s
  apart id s hl := by
    rw [MemoryBindings.bound_erase_subject m h.distinct]
    split
    · simp
    · exact h.apart id s hl.1

/-- Both stores count the same ids of a subject exactly if no id that was left behind is bound. -/
theorem count_eq_iff (h : Mirrors root m srv left) (subject : String) (hlive : m.live = m.entries) :
    m.count subject = ((listed root srv subject).countP fun id => (holder? root srv id).isSome) ↔
      ∀ id other, left id subject → m.bound? id ≠ some other := by
  let counted := (listed root srv subject).filter fun id => (holder? root srv id).isSome
  have hcounted : ∀ id, id ∈ counted ↔
      (m.bound? id = some subject ∨ left id subject) ∧ (m.bound? id).isSome = true := by
    intro id
    rw [List.mem_filter, h.named, h.held]
  have hids : ∀ id, id ∈ m.idsOf subject ↔ m.bound? id = some subject :=
    fun id => MemoryBindings.mem_ids_of m h.distinct id subject
  have hnodup : (m.idsOf subject).Nodup := MemoryBindings.ids_of_nodup m h.distinct subject
  have hnodup' : counted.Nodup := (h.nodup subject).filter _
  rw [MemoryBindings.count_of_live m subject hlive, List.countP_eq_length_filter]
  constructor
  · intro hlength id other hl hbound
    have hsub : m.idsOf subject ⊆ counted := by
      intro x hx
      have hx' := (hids x).mp hx
      exact (hcounted x).mpr ⟨Or.inl hx', by rw [hx']; rfl⟩
    have hperm := (hnodup.subperm hsub).perm_of_length_le (Nat.le_of_eq hlength.symm)
    have hin : id ∈ counted := (hcounted id).mpr ⟨Or.inr hl, by rw [hbound]; rfl⟩
    exact h.apart id subject hl ((hids id).mp (hperm.mem_iff.mpr hin))
  · intro hnone
    refine ((List.perm_ext_iff_of_nodup hnodup hnodup').mpr ?_).length_eq
    intro id
    rw [hids, hcounted]
    constructor
    · intro hid
      exact ⟨Or.inl hid, by rw [hid]; rfl⟩
    · rintro ⟨hid | hl, hsome⟩
      · exact hid
      · obtain ⟨other, hbound⟩ := Option.isSome_iff_exists.mp hsome
        exact absurd hbound (hnone id other hl)

end Countersign.SharedBindings
