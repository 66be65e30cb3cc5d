import Countersign.Binding.Memory
import Mathlib.Data.List.Nodup

/-!
# What a store in memory holds

Where each id is bound once, the bindings are a table from ids to subjects. An
operation changes the line of its id, or takes away the lines of its subject.
-/

set_option autoImplicit false

namespace Countersign.MemoryBindings

def bound? (m : MemoryBindings) (id : String) : Option String :=
  (m.entries.find? fun b => b.id == id).map Binding.subject

def Distinct (m : MemoryBindings) : Prop := (m.entries.map Binding.id).Nodup

def place (m : MemoryBindings) (b : Binding) : MemoryBindings :=
  { m with entries := b :: (m.erase b.id).entries }

theorem get_of_live (m : MemoryBindings) (id : String) (h : m.live = m.entries) :
    m.get? id = m.bound? id := by
  rw [get?, h, bound?]

theorem bound_erase (m : MemoryBindings) (id x : String) :
    (m.erase id).bound? x = if x = id then none else m.bound? x := by
  simp only [bound?, erase, List.find?_filter]
  by_cases hx : x = id
  · rw [if_pos hx, Option.map_eq_none_iff, List.find?_eq_none]
    intro b _
    simp [hx]
  · rw [if_neg hx]
    congr 2
    funext b
    by_cases hb : b.id = x
    · simp [hb, hx]
    · simp [hb]

theorem bound_place (m : MemoryBindings) (b : Binding) (x : String) :
    (m.place b).bound? x = if x = b.id then some b.subject else m.bound? x := by
  by_cases hx : x = b.id
  · simp [bound?, place, hx]
  · have hb : (b.id == x) = false := beq_false_of_ne (Ne.symm hx)
    have herase := bound_erase m b.id x
    simp only [bound?, if_neg hx] at herase ⊢
    rw [place, List.find?_cons, hb]
    exact herase

theorem erase_distinct (m : MemoryBindings) (h : m.Distinct) (id : String) : (m.erase id).Distinct :=
  h.sublist (List.filter_sublist.map _)

theorem erase_subject_distinct (m : MemoryBindings) (h : m.Distinct) (subject : String) :
    (m.eraseSubject subject).Distinct :=
  h.sublist (List.filter_sublist.map _)

theorem place_distinct (m : MemoryBindings) (h : m.Distinct) (b : Binding) :
    (m.place b).Distinct := by
  refine List.nodup_cons.mpr ⟨?_, erase_distinct m h b.id⟩
  intro hm
  obtain ⟨c, hc, hid⟩ := List.mem_map.mp hm
  exact of_decide_eq_true (List.mem_filter.mp hc).2 hid

theorem bound_iff (m : MemoryBindings) (h : m.Distinct) (id subject : String) :
    m.bound? id = some subject ↔ ∃ b ∈ m.entries, b.id = id ∧ b.subject = subject := by
  rw [bound?, Option.map_eq_some_iff]
  constructor
  · rintro ⟨b, hb, hs⟩
    exact ⟨b, List.mem_of_find?_eq_some hb, by simpa using List.find?_some hb, hs⟩
  · rintro ⟨b, hb, hid, hs⟩
    cases hf : m.entries.find? fun b => b.id == id with
    | none => exact absurd (beq_iff_eq.mpr hid) (List.find?_eq_none.mp hf b hb)
    | some c =>
      have hcid : c.id = id := by simpa using List.find?_some hf
      have hcb : c = b := List.inj_on_of_nodup_map h (List.mem_of_find?_eq_some hf) hb
        (hcid.trans hid.symm)
      exact ⟨c, rfl, hcb ▸ hs⟩

theorem bound_erase_subject (m : MemoryBindings) (h : m.Distinct) (subject x : String) :
    (m.eraseSubject subject).bound? x =
      if m.bound? x = some subject then none else m.bound? x := by
  apply Option.ext
  intro s
  rw [bound_iff _ (erase_subject_distinct m h subject)]
  simp only [eraseSubject, List.mem_filter, decide_eq_true_eq]
  by_cases hx : m.bound? x = some subject
  · rw [if_pos hx]
    constructor
    · rintro ⟨b, ⟨hb, hne⟩, hid, hs⟩
      have hbound := (bound_iff m h x s).mpr ⟨b, hb, hid, hs⟩
      exact absurd (hs.trans (Option.some.inj (hbound.symm.trans hx))) hne
    · intro hs
      cases hs
  · rw [if_neg hx, bound_iff m h]
    constructor
    · rintro ⟨b, ⟨hb, _⟩, hid, hs⟩
      exact ⟨b, hb, hid, hs⟩
    · rintro ⟨b, hb, hid, hs⟩
      exact ⟨b, ⟨hb, fun hsub => hx ((bound_iff m h x subject).mpr ⟨b, hb, hid, hsub⟩)⟩, hid, hs⟩

def idsOf (m : MemoryBindings) (subject : String) : List String :=
  (m.entries.filter fun b => b.subject == subject).map Binding.id

theorem ids_of_nodup (m : MemoryBindings) (h : m.Distinct) (subject : String) :
    (m.idsOf subject).Nodup :=
  h.sublist (List.filter_sublist.map _)

theorem mem_ids_of (m : MemoryBindings) (h : m.Distinct) (id subject : String) :
    id ∈ m.idsOf subject ↔ m.bound? id = some subject := by
  rw [bound_iff m h, idsOf, List.mem_map]
  simp only [List.mem_filter, beq_iff_eq]
  constructor
  · rintro ⟨b, ⟨hb, hs⟩, hid⟩
    exact ⟨b, hb, hid, hs⟩
  · rintro ⟨b, hb, hid, hs⟩
    exact ⟨b, ⟨hb, hs⟩, hid⟩

theorem count_of_live (m : MemoryBindings) (subject : String) (h : m.live = m.entries) :
    m.count subject = (m.idsOf subject).length := by
  rw [count, h, idsOf, List.length_map, List.countP_eq_length_filter]

end Countersign.MemoryBindings
