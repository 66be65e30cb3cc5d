import Countersign.Proofs.Binding.Shared

/-!
# What round trips keep of bindings and index

No round trip but a put binds an id or names it in a set. Every round trip keeps a
covered binding covered, with one exception: the second one of a subject's removal
takes away the whole set, whoever has joined it meanwhile.
-/

set_option autoImplicit false

namespace Countersign.SharedBindings

open Server (Slot)

variable {root : String}

structure Keeps (root : String) (srv next : Server) (id subject : String) : Prop where
  held : holder? root next id = some subject → holder? root srv id = some subject
  covered : Covered root srv id subject → Covered root next id subject
  named : id ∈ listed root next subject → id ∈ listed root srv subject

theorem keeps_of_token (srv next : Server) (id subject : String)
    (htoken : next.slot? (tokenKey root id) = srv.slot? (tokenKey root id))
    (hcovered : Covered root srv id subject → Covered root next id subject)
    (hnamed : id ∈ listed root next subject → id ∈ listed root srv subject) :
    Keeps root srv next id subject := by
  refine ⟨?_, hcovered, hnamed⟩
  intro h
  rwa [holder?, htoken] at h

theorem keeps_of_slots (srv next : Server) (id subject : String)
    (htoken : next.slot? (tokenKey root id) = srv.slot? (tokenKey root id))
    (hset : next.slot? (subjectKey root subject) = srv.slot? (subjectKey root subject)) :
    Keeps root srv next id subject := by
  apply keeps_of_token srv next id subject htoken
  · intro h t ht
    rw [htoken] at ht
    rw [hset]
    exact h t ht
  · intro h
    rwa [listed, hset] at h

theorem keeps_of_gone (srv next : Server) (id subject : String)
    (htoken : next.slot? (tokenKey root id) = none)
    (hnamed : id ∈ listed root next subject → id ∈ listed root srv subject) :
    Keeps root srv next id subject := by
  refine ⟨?_, ?_, hnamed⟩
  · intro h
    simp [holder?, htoken] at h
  · intro _ t ht
    rw [htoken] at ht
    cases ht

theorem elapse_typed (srv : Server) (hsrv : Typed root srv) (ms : Nat) :
    Typed root (srv.elapse ms) := by
  constructor
  · intro id x hx
    rw [Server.slot_elapse, Option.filter_eq_some_iff] at hx
    exact hsrv.token id x hx.1
  · intro s x hx
    rw [Server.slot_elapse, Option.filter_eq_some_iff] at hx
    exact hsrv.subject s x hx.1

theorem elapse_keeps (srv : Server) (ms : Nat) (id subject : String) :
    Keeps root srv (srv.elapse ms) id subject := by
  refine ⟨?_, ?_, ?_⟩
  · intro h
    obtain ⟨t, ht⟩ := (holder_iff _ id subject).mp h
    rw [Server.slot_elapse, Option.filter_eq_some_iff] at ht
    exact (holder_iff srv id subject).mpr ⟨t, ht.1⟩
  · intro h t ht
    rw [Server.slot_elapse, Option.filter_eq_some_iff] at ht
    obtain ⟨ids, u, hset, hid, htu⟩ := h t ht.1
    have hlive := ht.2
    simp only [Server.isLive, decide_eq_true_eq] at hlive
    refine ⟨ids, u, ?_, hid, htu⟩
    rw [Server.slot_elapse, hset]
    refine Option.filter_eq_some_iff.mpr ⟨rfl, ?_⟩
    simp only [Server.isLive, decide_eq_true_eq]
    omega
  · intro h
    obtain ⟨ids, t, hset, hid⟩ := (mem_listed_iff _ id subject).mp h
    rw [Server.slot_elapse, Option.filter_eq_some_iff] at hset
    exact (mem_listed_iff srv id subject).mpr ⟨ids, t, hset.1, hid⟩

theorem put_typed (srv : Server) (hsrv : Typed root srv) (id subject : String) (ttl : Duration) :
    Typed root (srv.runAll (putCommands root id subject ttl)).2 := by
  constructor
  · intro x slot hslot
    by_cases hx : x = id
    · subst hx
      rw [put_token, Option.some.injEq] at hslot
      exact ⟨_, _, hslot.symm⟩
    · rw [put_other srv id subject ttl _ (fun h => hx ((token_key_inj root x id).mp h))
        (token_key_ne_subject root x subject)] at hslot
      exact hsrv.token x slot hslot
  · intro s slot hslot
    by_cases hs : s = subject
    · subst hs
      obtain ⟨ids, u, hset, _⟩ := put_set srv hsrv id s ttl
      rw [hset, Option.some.injEq] at hslot
      exact ⟨ids, u, hslot.symm⟩
    · rw [put_other srv id subject ttl _ (token_key_ne_subject root id s).symm
        (fun h => hs ((subject_key_inj root s subject).mp h))] at hslot
      exact hsrv.subject s slot hslot

theorem put_holder (srv : Server) (id subject : String) (ttl : Duration) :
    holder? root (srv.runAll (putCommands root id subject ttl)).2 id = some subject :=
  (holder_iff _ id subject).mpr ⟨_, put_token srv id subject ttl⟩

theorem put_covered (srv : Server) (hsrv : Typed root srv) (id subject : String) (ttl : Duration) :
    Covered root (srv.runAll (putCommands root id subject ttl)).2 id subject := by
  intro t ht
  rw [put_token] at ht
  cases ht
  obtain ⟨ids, u, hset, hids, hu, _⟩ := put_set srv hsrv id subject ttl
  exact ⟨ids, u, hset, (hids id).mpr (Or.inr rfl), hu⟩

theorem put_keeps (srv : Server) (hsrv : Typed root srv) (id subject : String) (ttl : Duration)
    (x s : String) (hx : x ≠ id) :
    Keeps root srv (srv.runAll (putCommands root id subject ttl)).2 x s := by
  have htoken := put_other srv id subject ttl (tokenKey root x)
    (fun h => hx ((token_key_inj root x id).mp h)) (token_key_ne_subject root x subject)
  by_cases hs : s = subject
  · subst hs
    obtain ⟨ids, u, hset, hids, _, hu⟩ := put_set srv hsrv id s ttl
    apply keeps_of_token srv _ x s htoken
    · intro h t ht
      rw [htoken] at ht
      obtain ⟨old, v, hold, hxold, htv⟩ := h t ht
      have hlisted := (mem_listed_iff srv x s).mpr ⟨old, some v, hold, hxold⟩
      exact ⟨ids, u, hset, (hids x).mpr (Or.inl hlisted), Nat.le_trans htv (hu old v hold)⟩
    · intro h
      simp only [listed, hset] at h
      exact ((hids x).mp h).resolve_right hx
  · exact keeps_of_slots srv _ x s htoken
      (put_other srv id subject ttl _ (token_key_ne_subject root id s).symm
        (fun h => hs ((subject_key_inj root s subject).mp h)))

theorem shrunk_set (id : String) (x : Option Slot) (slot : Slot)
    (hx : ∀ y, x = some y → ∃ ids t, y = ⟨.set ids, some t⟩) (h : Server.shrunk id x = some slot) :
    ∃ ids t, x = some ⟨.set ids, some t⟩ ∧ slot = ⟨.set (ids.filter (· ≠ id)), some t⟩ := by
  cases x with
  | none => cases h
  | some y =>
    obtain ⟨ids, t, rfl⟩ := hx y rfl
    simp only [Server.shrunk] at h
    split at h
    · cases h
    · exact ⟨ids, t, rfl, (Option.some.inj h).symm⟩

theorem unbind_typed (srv : Server) (hsrv : Typed root srv) (id : String) (held : Option String) :
    Typed root (srv.runAll (unbindCommands root id held)).2 := by
  constructor
  · intro x slot hslot
    by_cases hx : x = id
    · rw [hx, unbind_token] at hslot
      cases hslot
    · rw [unbind_token_other srv id held x hx] at hslot
      exact hsrv.token x slot hslot
  · intro s slot hslot
    rw [unbind_set] at hslot
    split at hslot
    · obtain ⟨ids, t, _, rfl⟩ := shrunk_set id _ slot (hsrv.subject s) hslot
      exact ⟨_, t, rfl⟩
    · exact hsrv.subject s slot hslot

theorem unbind_named (srv : Server) (hsrv : Typed root srv) (id : String) (held : Option String)
    (x s : String) (h : x ∈ listed root (srv.runAll (unbindCommands root id held)).2 s) :
    x ∈ listed root srv s := by
  obtain ⟨ids, t, hids, hx⟩ := (mem_listed_iff _ x s).mp h
  rw [unbind_set] at hids
  by_cases hheld : held = some s
  · rw [if_pos hheld] at hids
    obtain ⟨old, u, hold, hslot⟩ := shrunk_set id _ _ (hsrv.subject s) hids
    cases hslot
    exact (mem_listed_iff srv x s).mpr ⟨old, some u, hold, (List.mem_filter.mp hx).1⟩
  · rw [if_neg hheld] at hids
    exact (mem_listed_iff srv x s).mpr ⟨ids, t, hids, hx⟩

theorem unbind_keeps (srv : Server) (hsrv : Typed root srv) (id : String) (held : Option String)
    (x s : String) : Keeps root srv (srv.runAll (unbindCommands root id held)).2 x s := by
  have hnamed := unbind_named srv hsrv id held x s
  by_cases hx : x = id
  · have hnone : (srv.runAll (unbindCommands root id held)).2.slot? (tokenKey root x) = none := by
      rw [hx]
      exact unbind_token srv id held
    exact keeps_of_gone srv _ x s hnone hnamed
  · have htoken := @unbind_token_other root srv id held x hx
    have hset := @unbind_set root srv id held s
    by_cases hheld : held = some s
    · rw [if_pos hheld] at hset
      refine keeps_of_token srv _ x s htoken ?_ hnamed
      intro h t ht
      rw [htoken] at ht
      obtain ⟨ids, u, hids, hxids, htu⟩ := h t ht
      have hrest : x ∈ ids.filter (· ≠ id) := List.mem_filter.mpr ⟨hxids, by simpa using hx⟩
      refine ⟨ids.filter (· ≠ id), u, ?_, hrest, htu⟩
      rw [hset, hids]
      simp only [Server.shrunk]
      rw [if_neg (fun h => List.ne_nil_of_mem hrest h.2)]
    · rw [if_neg hheld] at hset
      exact keeps_of_slots srv _ x s htoken hset

theorem clear_typed (srv : Server) (hsrv : Typed root srv) (subject : String) (ids : List String) :
    Typed root (srv.runAll (clearCommands root subject ids)).2 := by
  constructor
  · intro x slot hslot
    rw [clear_token] at hslot
    split at hslot
    · cases hslot
    · exact hsrv.token x slot hslot
  · intro s slot hslot
    rw [clear_set] at hslot
    split at hslot
    · cases hslot
    · exact hsrv.subject s slot hslot

/-- After a subject is cleared no id is named, and the ids that had not been read stay bound. -/
theorem clear_listed (srv : Server) (subject : String) (ids : List String) :
    listed root (srv.runAll (clearCommands root subject ids)).2 subject = [] := by
  simp [listed, clear_set]

theorem clear_holder (srv : Server) (subject : String) (ids : List String) (x : String) :
    holder? root (srv.runAll (clearCommands root subject ids)).2 x =
      if x ∈ ids then none else holder? root srv x := by
  simp only [holder?, clear_token]
  by_cases hx : x ∈ ids <;> simp [hx]

theorem clear_keeps (srv : Server) (subject : String) (ids : List String) (x s : String)
    (h : x ∈ ids ∨ s ≠ subject) :
    Keeps root srv (srv.runAll (clearCommands root subject ids)).2 x s := by
  have htoken := @clear_token root srv subject ids x
  have hset := @clear_set root srv subject ids s
  by_cases hx : x ∈ ids
  · refine keeps_of_gone srv _ x s (htoken.trans (if_pos hx)) ?_
    intro hnamed
    by_cases hs : s = subject
    · rw [hs, clear_listed] at hnamed
      cases hnamed
    · simpa only [listed, hset, if_neg hs] using hnamed
  · exact keeps_of_slots srv _ x s (htoken.trans (if_neg hx))
      (hset.trans (if_neg (h.resolve_left hx)))

end Countersign.SharedBindings
