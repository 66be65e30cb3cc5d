import Countersign.Proofs.Binding.Agreement
import Countersign.Proofs.Binding.Memory

/-!
# Histories of a store in memory

Calls arrive one after the other, each at its instant. What an id is bound to is
told by the history alone: by the last call that put it, unless its time is over or
a later call took it away. Binding an id again sets its time anew, be it longer or
shorter, and what is over is neither told nor counted.
-/

set_option autoImplicit false

namespace Countersign.MemoryBindings

open SharedBindings (Operation)

structure Timed where
  operation : Operation
  instant : Nat

namespace Timed

def Places (c : Timed) (b : Binding) : Prop :=
  ∃ ttl, c.operation = .put b.id b.subject ttl ∧ b.expiry = c.instant + ttl.nanos

/-- A call ends a binding of an id to a subject when it binds the id again, or unbinds the id or all ids
of the subject. -/
def Ends (c : Timed) (id subject : String) : Prop :=
  (∃ other ttl, c.operation = .put id other ttl) ∨ c.operation = .remove id ∨
    c.operation = .removeSubject subject

def Fits : Timed → Prop
  | ⟨.put _ _ ttl, t⟩ => t + ttl.nanos < horizon
  | ⟨.get _, _⟩ => True
  | ⟨.remove _, _⟩ => True
  | ⟨.removeSubject _, _⟩ => True

instance : (c : Timed) → Decidable c.Fits
  | ⟨.put _ _ ttl, t⟩ => inferInstanceAs (Decidable (t + ttl.nanos < horizon))
  | ⟨.get _, _⟩ => isTrue trivial
  | ⟨.remove _, _⟩ => isTrue trivial
  | ⟨.removeSubject _, _⟩ => isTrue trivial

theorem places_put (id subject : String) (ttl : Duration) (t : Nat) (b : Binding) :
    Places ⟨.put id subject ttl, t⟩ b ↔ b = ⟨id, subject, t + ttl.nanos⟩ := by
  obtain ⟨i, x, expiry⟩ := b
  simp only [Places, Operation.put.injEq, Binding.mk.injEq]
  constructor
  · rintro ⟨_, ⟨rfl, rfl, rfl⟩, hexpiry⟩
    exact ⟨rfl, rfl, hexpiry⟩
  · rintro ⟨rfl, rfl, hexpiry⟩
    exact ⟨ttl, ⟨rfl, rfl, rfl⟩, hexpiry⟩

theorem ends_put (id subject i x : String) (ttl : Duration) (t : Nat) :
    Ends ⟨.put id subject ttl, t⟩ i x ↔ i = id := by
  simp [Ends, eq_comm]

theorem ends_remove (id i x : String) (t : Nat) : Ends ⟨.remove id, t⟩ i x ↔ i = id := by
  simp [Ends, eq_comm]

theorem ends_remove_subject (subject i x : String) (t : Nat) :
    Ends ⟨.removeSubject subject, t⟩ i x ↔ x = subject := by
  simp [Ends, eq_comm]

end Timed

def atInstant (m : MemoryBindings) (t : Nat) : MemoryBindings := { m with now := t }

def following (m : MemoryBindings) (c : Timed) : MemoryBindings :=
  (c.operation.serve (m.atInstant c.instant)).2

def after (m : MemoryBindings) (cs : List Timed) : MemoryBindings := cs.foldl following m

theorem after_snoc (m : MemoryBindings) (cs : List Timed) (c : Timed) :
    m.after (cs ++ [c]) = (m.after cs).following c := by
  simp [after]

/-! ## One call -/

theorem following_put (m : MemoryBindings) (id subject : String) (ttl : Duration) (t : Nat)
    (h : Timed.Fits ⟨.put id subject ttl, t⟩) : m.following ⟨.put id subject ttl, t⟩ =
      (m.atInstant t).place ⟨id, subject, t + ttl.nanos⟩ := by
  have hroom : (m.atInstant t).now + ttl.nanos < horizon := h
  simp only [following, Operation.serve, BindingStore.put, insert?, if_pos hroom]
  rfl

theorem following_distinct (m : MemoryBindings) (h : m.Distinct) (c : Timed) (hfits : c.Fits) :
    (m.following c).Distinct := by
  obtain ⟨operation, t⟩ := c
  cases operation with
  | put id subject ttl =>
    rw [following_put m id subject ttl t hfits]
    exact place_distinct (m.atInstant t) h _
  | get id => exact h
  | remove id => exact erase_distinct (m.atInstant t) h id
  | removeSubject subject => exact erase_subject_distinct (m.atInstant t) h subject

theorem mem_following (m : MemoryBindings) (c : Timed) (hfits : c.Fits) (b : Binding) :
    b ∈ (m.following c).entries ↔ c.Places b ∨ (b ∈ m.entries ∧ ¬ c.Ends b.id b.subject) := by
  obtain ⟨operation, t⟩ := c
  cases operation with
  | put id subject ttl =>
    rw [following_put m id subject ttl t hfits, Timed.places_put, Timed.ends_put]
    simp [place, erase, atInstant]
  | get id => simp [following, Operation.serve, BindingStore.get, atInstant, Timed.Places, Timed.Ends]
  | remove id =>
    rw [Timed.ends_remove]
    simp [following, Operation.serve, BindingStore.remove, erase, atInstant, Timed.Places]
  | removeSubject subject =>
    rw [Timed.ends_remove_subject]
    simp [following, Operation.serve, BindingStore.removeSubject, eraseSubject, atInstant,
      Timed.Places]

/-! ## A whole history -/

variable (cs : List Timed)

theorem after_distinct (hfits : ∀ c ∈ cs, c.Fits) : (after {} cs).Distinct := by
  induction cs using List.reverseRecOn with
  | nil => exact List.nodup_nil
  | append_singleton cs c ih =>
    rw [after_snoc]
    exact following_distinct _ (ih fun d hd => hfits d (by simp [hd])) c (hfits c (by simp))

/-- The bindings of a store are those that some call of its history made and no later one ended. -/
theorem mem_after (hfits : ∀ c ∈ cs, c.Fits) (b : Binding) :
    b ∈ (after {} cs).entries ↔ ∃ before c later, cs = before ++ c :: later ∧ c.Places b ∧
      ∀ d ∈ later, ¬ d.Ends b.id b.subject := by
  induction cs using List.reverseRecOn with
  | nil => simp [after]
  | append_singleton cs c ih =>
    have hfits' : ∀ d ∈ cs, d.Fits := fun d hd => hfits d (by simp [hd])
    rw [after_snoc, mem_following _ c (hfits c (by simp)), ih hfits']
    constructor
    · rintro (hplaces | ⟨⟨before, d, later, rfl, hplaces, hlater⟩, hends⟩)
      · exact ⟨cs, c, [], rfl, hplaces, by simp⟩
      · refine ⟨before, d, later ++ [c], by simp, hplaces, ?_⟩
        simpa [or_imp, forall_and] using ⟨hlater, hends⟩
    · rintro ⟨before, d, later, hsplit, hplaces, hlater⟩
      rcases List.eq_nil_or_concat later with rfl | ⟨rest, e, rfl⟩
      · obtain ⟨_, hlast⟩ := List.append_inj' hsplit rfl
        obtain rfl : c = d := by simpa using hlast
        exact Or.inl hplaces
      · have hsplit' : cs ++ [c] = (before ++ d :: rest) ++ [e] := by simpa using hsplit
        obtain ⟨hcs, hlast⟩ := List.append_inj' hsplit' rfl
        obtain rfl : c = e := by simpa using hlast
        refine Or.inr ⟨⟨before, d, rest, hcs, hplaces, fun x hx => hlater x (by simp [hx])⟩, ?_⟩
        exact hlater c (by simp)

/-- What the history says that an id is bound to at an instant: the last call that put the id named the
subject, its time is not over, and no later call removed the id or all ids of the subject. -/
def Stands (id subject : String) (t : Nat) : Prop :=
  ∃ before ttl u later, cs = before ++ ⟨.put id subject ttl, u⟩ :: later ∧ t < u + ttl.nanos ∧
    (∀ d ∈ later, ∀ other span, d.operation ≠ .put id other span) ∧
    (∀ d ∈ later, d.operation ≠ .remove id) ∧ ∀ d ∈ later, d.operation ≠ .removeSubject subject

theorem live_distinct (m : MemoryBindings) (h : m.Distinct) :
    Distinct { m with entries := m.live } :=
  h.sublist (List.filter_sublist.map _)

theorem get_iff (m : MemoryBindings) (h : m.Distinct) (id subject : String) :
    m.get? id = some subject ↔
      ∃ b ∈ m.entries, b.id = id ∧ b.subject = subject ∧ m.now < b.expiry := by
  have hbound := bound_iff { m with entries := m.live } (live_distinct m h) id subject
  simp only [live, List.mem_filter, decide_eq_true_eq] at hbound
  rw [show m.get? id = bound? { m with entries := m.live } id from rfl, live, hbound]
  constructor
  · rintro ⟨b, ⟨hb, hlive⟩, hid, hsubject⟩
    exact ⟨b, hb, hid, hsubject, hlive⟩
  · rintro ⟨b, hb, hid, hsubject, hlive⟩
    exact ⟨b, ⟨hb, hlive⟩, hid, hsubject⟩

theorem get_after (hfits : ∀ c ∈ cs, c.Fits) (id subject : String) (t : Nat) :
    ((after {} cs).atInstant t).get? id = some subject ↔ Stands cs id subject t := by
  rw [get_iff ((after {} cs).atInstant t) (after_distinct cs hfits)]
  constructor
  · rintro ⟨b, hb, rfl, rfl, hlive⟩
    obtain ⟨before, c, later, hcs, ⟨ttl, hput, hexpiry⟩, hlater⟩ := (mem_after cs hfits b).mp hb
    obtain ⟨operation, u⟩ := c
    obtain rfl : operation = .put b.id b.subject ttl := hput
    refine ⟨before, ttl, u, later, hcs, hexpiry ▸ hlive, ?_, ?_, ?_⟩
    · exact fun d hd other span h => hlater d hd (Or.inl ⟨other, span, h⟩)
    · exact fun d hd h => hlater d hd (Or.inr (Or.inl h))
    · exact fun d hd h => hlater d hd (Or.inr (Or.inr h))
  · rintro ⟨before, ttl, u, later, hcs, hlive, hput, hremove, hsubject⟩
    refine ⟨⟨id, subject, u + ttl.nanos⟩, (mem_after cs hfits _).mpr ?_, rfl, rfl, hlive⟩
    refine ⟨before, _, later, hcs, ⟨ttl, rfl, rfl⟩, ?_⟩
    rintro d hd (⟨other, span, h⟩ | h | h)
    · exact hput d hd other span h
    · exact hremove d hd h
    · exact hsubject d hd h

/-! ## Removing a subject -/

def liveIds (m : MemoryBindings) (subject : String) : List String :=
  idsOf { m with entries := m.live } subject

theorem count_live (m : MemoryBindings) (subject : String) :
    m.count subject = (m.liveIds subject).length := by
  rw [count, liveIds, idsOf, List.length_map, List.countP_eq_length_filter]

theorem mem_live_ids (m : MemoryBindings) (h : m.Distinct) (id subject : String) :
    id ∈ m.liveIds subject ↔ m.get? id = some subject :=
  mem_ids_of { m with entries := m.live } (live_distinct m h) id subject

theorem get_erase_subject (m : MemoryBindings) (h : m.Distinct) (subject id : String) (t t' : Nat)
    (hle : t ≤ t') : (((m.atInstant t).eraseSubject subject).atInstant t').get? id =
      if (m.atInstant t).get? id = some subject then none else (m.atInstant t').get? id := by
  have hkept : ((m.atInstant t).eraseSubject subject).Distinct :=
    erase_subject_distinct (m.atInstant t) h subject
  apply Option.ext
  intro x
  rw [get_iff (((m.atInstant t).eraseSubject subject).atInstant t') hkept]
  by_cases hbound : (m.atInstant t).get? id = some subject
  · rw [if_pos hbound]
    obtain ⟨b, hb, hid, hsubject, _⟩ := (get_iff (m.atInstant t) h id subject).mp hbound
    constructor
    · rintro ⟨d, hd, hdid, _, _⟩
      obtain ⟨hmem, hne⟩ := List.mem_filter.mp hd
      obtain rfl : d = b := List.inj_on_of_nodup_map h hmem hb (hdid.trans hid.symm)
      exact absurd hsubject (of_decide_eq_true hne)
    · intro hx
      cases hx
  · rw [if_neg hbound, get_iff (m.atInstant t') h]
    constructor
    · rintro ⟨b, hb, hid, hsubject, hlive⟩
      exact ⟨b, (List.mem_filter.mp hb).1, hid, hsubject, hlive⟩
    · rintro ⟨b, hb, hid, hsubject, hlive⟩
      refine ⟨b, List.mem_filter.mpr ⟨hb, decide_eq_true fun hsame => hbound ?_⟩, hid, hsubject,
        hlive⟩
      exact (get_iff (m.atInstant t) h id subject).mpr
        ⟨b, hb, hid, hsame, Nat.lt_of_le_of_lt hle hlive⟩

/-- A store in memory answers what the history of its calls says, at every instant: an id is bound to
what the last call that put it named, while the time that was asked for then is not over and no later
call took it away; and to remove a subject unbinds and counts exactly the ids that are bound to it then,
and changes no later answer about another. -/
theorem answers_iff_history (hfits : ∀ c ∈ cs, c.Fits) (t : Nat) :
    (∀ id subject, (BindingStore.get ((after {} cs).atInstant t) id).1 = .ok (some subject) ↔
      Stands cs id subject t) ∧
    (∀ subject, ∃ ids : List String, ids.Nodup ∧
      (∀ id, id ∈ ids ↔
        (BindingStore.get ((after {} cs).atInstant t) id).1 = .ok (some subject)) ∧
      (BindingStore.removeSubject ((after {} cs).atInstant t) subject).1 = .ok ids.length ∧
      (∀ id ∈ ids, ∀ t', t ≤ t' → (BindingStore.get ((BindingStore.removeSubject
        ((after {} cs).atInstant t) subject).2.atInstant t') id).1 = .ok none) ∧
      ∀ id, id ∉ ids → ∀ t', t ≤ t' → (BindingStore.get ((BindingStore.removeSubject
        ((after {} cs).atInstant t) subject).2.atInstant t') id).1 =
          (BindingStore.get ((after {} cs).atInstant t') id).1) := by
  have hdistinct := after_distinct cs hfits
  have hget : ∀ (m : MemoryBindings) id x, (BindingStore.get m id).1 = .ok x ↔ m.get? id = x :=
    fun m id x => Except.ok.injEq (m.get? id) x ▸ Iff.rfl
  refine ⟨?_, ?_⟩
  · intro id subject
    rw [hget, get_after cs hfits]
  · intro subject
    have hmem := fun id => mem_live_ids ((after {} cs).atInstant t) hdistinct id subject
    refine ⟨((after {} cs).atInstant t).liveIds subject, ?_, ?_, ?_, ?_, ?_⟩
    · exact ids_of_nodup _ (live_distinct ((after {} cs).atInstant t) hdistinct) subject
    · intro id
      rw [hget, hmem]
    · exact congrArg Except.ok (count_live ((after {} cs).atInstant t) subject)
    · intro id hid t' hle
      rw [hget]
      exact (get_erase_subject _ hdistinct subject id t t' hle).trans (if_pos ((hmem id).mp hid))
    · intro id hid t' hle
      have hother := fun h => hid ((hmem id).mpr h)
      exact congrArg Except.ok
        ((get_erase_subject _ hdistinct subject id t t' hle).trans (if_neg hother))

/-- An id is bound again to another subject and back, each time for a shorter span, one for a longer,
and one for none; the last bindings end far away, at once, and between two calls. -/
def sampleCalls : List Timed :=
  [⟨.put "a" "alice" (Duration.ofNanos 100), 0⟩, ⟨.put "b" "alice" (Duration.ofNanos 5), 0⟩,
    ⟨.put "a" "bob" (Duration.ofNanos 50), 3⟩,
    ⟨.put "b" "alice" (Duration.ofNanos 9223372036854775807999999990), 3⟩,
    ⟨.put "c" "alice" Duration.zero, 3⟩, ⟨.put "d" "bob" (Duration.ofNanos 90), 4⟩,
    ⟨.removeSubject "bob", 9⟩, ⟨.get "a", 9⟩, ⟨.put "a" "alice" (Duration.ofNanos 7), 9⟩,
    ⟨.put "e" "alice" (Duration.ofNanos 70), 9⟩, ⟨.remove "e", 10⟩]

theorem answers_iff_history_sample :
    (∀ c ∈ sampleCalls, c.Fits) ∧
    Stands sampleCalls "a" "alice" 15 ∧ ¬ Stands sampleCalls "a" "alice" 16 ∧
    Stands sampleCalls "b" "alice" 16 ∧
    ∃ ids : List String, ids.length = 2 ∧ ids.Nodup ∧
      ∀ id, id ∈ ids ↔ Stands sampleCalls id "alice" 15 := by
  have hfits : ∀ c ∈ sampleCalls, c.Fits := by decide
  obtain ⟨hearly, hremoved⟩ := answers_iff_history sampleCalls hfits 15
  obtain ⟨hlate, _⟩ := answers_iff_history sampleCalls hfits 16
  obtain ⟨ids, hnodup, hids, hcount, _⟩ := hremoved "alice"
  refine ⟨hfits, (hearly "a" "alice").mp ?_, fun h => ?_, (hlate "b" "alice").mp ?_, ids, ?_, hnodup,
    ?_⟩
  · decide +kernel
  · have hget := (hlate "a" "alice").mpr h
    revert hget
    decide +kernel
  · decide +kernel
  · have htwo : (BindingStore.removeSubject ((after {} sampleCalls).atInstant 15) "alice").1 =
        .ok 2 := by decide +kernel
    exact (Except.ok.inj (htwo.symm.trans hcount)).symm
  · intro id
    rw [hids, hearly]

end Countersign.MemoryBindings
