import Countersign.Binding.Memory

/-!
# Stores that fail

A call of a store may fail before it took effect, or behind it when only the answer
is lost. Nobody who calls it can tell which. What such a store can still be relied
on is that it binds nothing that was not put into it, and that what it says it
unbound is unbound.
-/

set_option autoImplicit false

namespace Countersign

open BindingStore

/-- A map from ids to subjects any of whose calls may fail, with its effect, with a part of it, or
without. It may lose bindings by itself, but makes none up. -/
class Unreliable (σ : Type) [BindingStore σ] where
  Binds : σ → (id subject : String) → Prop
  put_binds : ∀ s id subject ttl i x, Binds (put s id subject ttl).2 i x →
    Binds s i x ∨ (i = id ∧ x = subject)
  get_binds : ∀ s id i x, Binds (get s id).2 i x → Binds s i x
  get_bound : ∀ s id x, (get s id).1 = .ok (some x) → Binds s id x
  remove_binds : ∀ s id i x, Binds (remove s id).2 i x → Binds s i x
  remove_unbinds : ∀ s id x, (remove s id).1 = .ok () → ¬ Binds (remove s id).2 id x
  remove_subject_binds : ∀ s subject i x, Binds (removeSubject s subject).2 i x → Binds s i x
  remove_subject_unbinds : ∀ s subject n i, (removeSubject s subject).1 = .ok n →
    ¬ Binds (removeSubject s subject).2 i subject

namespace MemoryBindings

/-- An entry binds its id, also when its end has come. -/
def Holds (s : MemoryBindings) (id subject : String) : Prop :=
  ∃ b ∈ s.entries, b.id = id ∧ b.subject = subject

theorem holds_put (s : MemoryBindings) (id subject : String) (ttl : Duration) (i x : String)
    (h : (put s id subject ttl).2.Holds i x) : s.Holds i x ∨ (i = id ∧ x = subject) := by
  simp only [put, insert?] at h
  by_cases hroom : s.now + ttl.nanos < horizon
  · rw [if_pos hroom] at h
    obtain ⟨b, hb, hid, hsubject⟩ := h
    rcases List.mem_cons.mp hb with rfl | hb
    · exact Or.inr ⟨hid.symm, hsubject.symm⟩
    · exact Or.inl ⟨b, (List.mem_filter.mp hb).1, hid, hsubject⟩
  · rw [if_neg hroom] at h
    exact Or.inl h

theorem holds_got (s : MemoryBindings) (id x : String)
    (h : (get s id).1 = .ok (some x)) : s.Holds id x := by
  obtain ⟨b, hb, hsubject⟩ := Option.map_eq_some_iff.mp (Except.ok.inj h)
  have hlive := List.mem_of_find?_eq_some hb
  have hid := List.find?_some hb
  exact ⟨b, (List.mem_filter.mp hlive).1, eq_of_beq hid, hsubject⟩

theorem holds_kept (s : MemoryBindings) (keep : Binding → Bool) (i x : String)
    (h : MemoryBindings.Holds { s with entries := s.entries.filter keep } i x) :
    s.Holds i x ∧ ∃ b, keep b = true ∧ b.id = i ∧ b.subject = x := by
  obtain ⟨b, hb, hid, hsubject⟩ := h
  obtain ⟨hmem, hkeep⟩ := List.mem_filter.mp hb
  exact ⟨⟨b, hmem, hid, hsubject⟩, b, hkeep, hid, hsubject⟩

instance : Unreliable MemoryBindings where
  Binds := Holds
  put_binds := holds_put
  get_binds _ _ _ _ h := h
  get_bound := holds_got
  remove_binds s _ i x h := (holds_kept s _ i x h).1
  remove_unbinds s id x _ h := by
    obtain ⟨_, b, hkeep, hid, _⟩ := holds_kept s _ id x h
    exact of_decide_eq_true hkeep hid
  remove_subject_binds s _ i x h := (holds_kept s _ i x h).1
  remove_subject_unbinds s subject _ i _ h := by
    obtain ⟨_, b, hkeep, _, hsubject⟩ := holds_kept s _ i subject h
    exact of_decide_eq_true hkeep hsubject

end MemoryBindings

inductive Fault where
  | none
  | missed (e : StoreFailure)
  /-- The call fails, but has its effect. -/
  | unheard (e : StoreFailure)

structure Faulty (σ : Type) where
  faults : List Fault
  store : σ

namespace Faulty

variable {σ : Type}

def call {α : Type} (f : Faulty σ) (act : σ → Except StoreFailure α × σ) :
    Except StoreFailure α × Faulty σ :=
  match f.faults with
  | [] => ((act f.store).1, ⟨[], (act f.store).2⟩)
  | .none :: r => ((act f.store).1, ⟨r, (act f.store).2⟩)
  | .missed e :: r => (.error e, ⟨r, f.store⟩)
  | .unheard e :: r => (.error e, ⟨r, (act f.store).2⟩)

instance [BindingStore σ] : BindingStore (Faulty σ) where
  put f id subject ttl := f.call fun s => put s id subject ttl
  get f id := f.call fun s => get s id
  remove f id := f.call fun s => remove s id
  removeSubject f subject := f.call fun s => removeSubject s subject

theorem call_end {α : Type} (f : Faulty σ) (act : σ → Except StoreFailure α × σ)
    (h : f.faults = []) : f.call act = ((act f.store).1, ⟨[], (act f.store).2⟩) := by
  rw [call, h]

theorem call_missed {α : Type} (f : Faulty σ) (act : σ → Except StoreFailure α × σ)
    (e : StoreFailure) (r : List Fault) (h : f.faults = .missed e :: r) :
    f.call act = (.error e, ⟨r, f.store⟩) := by
  rw [call, h]

theorem call_unheard {α : Type} (f : Faulty σ) (act : σ → Except StoreFailure α × σ)
    (e : StoreFailure) (r : List Fault) (h : f.faults = .unheard e :: r) :
    f.call act = (.error e, ⟨r, (act f.store).2⟩) := by
  rw [call, h]

theorem call_store {α : Type} (f : Faulty σ) (act : σ → Except StoreFailure α × σ) :
    (f.call act).2.store = f.store ∨ (f.call act).2.store = (act f.store).2 := by
  unfold call
  split
  · exact Or.inr rfl
  · exact Or.inr rfl
  · exact Or.inl rfl
  · exact Or.inr rfl

theorem call_answered {α : Type} (f : Faulty σ) (act : σ → Except StoreFailure α × σ) (a : α)
    (h : (f.call act).1 = .ok a) :
    (act f.store).1 = .ok a ∧ (f.call act).2.store = (act f.store).2 := by
  unfold call at h ⊢
  split at h
  · exact ⟨h, rfl⟩
  · exact ⟨h, rfl⟩
  · cases h
  · cases h

variable [BindingStore σ] [Unreliable σ]

instance : Unreliable (Faulty σ) where
  Binds f := Unreliable.Binds f.store
  put_binds f id subject ttl i x h := by
    rcases f.call_store fun s => put s id subject ttl with hs | hs
    · exact Or.inl (hs ▸ h)
    · exact Unreliable.put_binds f.store id subject ttl i x (hs ▸ h)
  get_binds f id i x h := by
    rcases f.call_store fun s => get s id with hs | hs
    · exact hs ▸ h
    · exact Unreliable.get_binds f.store id i x (hs ▸ h)
  get_bound f id x h := Unreliable.get_bound f.store id x (f.call_answered _ _ h).1
  remove_binds f id i x h := by
    rcases f.call_store fun s => remove s id with hs | hs
    · exact hs ▸ h
    · exact Unreliable.remove_binds f.store id i x (hs ▸ h)
  remove_unbinds f id x h hbinds := by
    obtain ⟨hanswer, hs⟩ := f.call_answered _ _ h
    exact Unreliable.remove_unbinds f.store id x hanswer (hs ▸ hbinds)
  remove_subject_binds f subject i x h := by
    rcases f.call_store fun s => removeSubject s subject with hs | hs
    · exact hs ▸ h
    · exact Unreliable.remove_subject_binds f.store subject i x (hs ▸ h)
  remove_subject_unbinds f subject n i h hbinds := by
    obtain ⟨hanswer, hs⟩ := f.call_answered _ _ h
    exact Unreliable.remove_subject_unbinds f.store subject n i hanswer (hs ▸ hbinds)

end Faulty

end Countersign
