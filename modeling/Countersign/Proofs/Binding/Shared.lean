import Countersign.Binding.Shared
import Countersign.Proofs.Binding.Server

/-!
# What the round trips of shared bindings change

Under one root the keys of ids and of subjects never meet. What is bound and what
is named can be read off the slots, and a put and the second round trip of a
removal are described by the slots they leave.
-/

set_option autoImplicit false

namespace Countersign.SharedBindings

open Server (Command Reply Slot)

/-! ## Keys -/

theorem token_key_chars (root id : String) : (tokenKey root id).toList =
    root.toList ++ ('t' :: ("oken:".toList ++ id.toList)) := by
  have hstem : "token:".toList = 't' :: "oken:".toList := by decide
  simp only [tokenKey, String.toList_append, List.append_assoc, hstem, List.cons_append]

theorem subject_key_chars (root subject : String) : (subjectKey root subject).toList =
    root.toList ++ ('s' :: ("ubject:".toList ++ subject.toList)) := by
  have hstem : "subject:".toList = 's' :: "ubject:".toList := by decide
  simp only [subjectKey, String.toList_append, List.append_assoc, hstem, List.cons_append]

theorem token_key_ne_subject (root id subject : String) :
    tokenKey root id ≠ subjectKey root subject := by
  intro h
  have hchars := congrArg String.toList h
  rw [token_key_chars, subject_key_chars] at hchars
  have hhead := (List.cons.inj (List.append_cancel_left hchars)).1
  exact absurd hhead (by decide)

theorem token_key_inj (root id other : String) : tokenKey root id = tokenKey root other ↔ id = other := by
  constructor
  · intro h
    have hchars := congrArg String.toList h
    rw [token_key_chars, token_key_chars] at hchars
    have htail := (List.cons.inj (List.append_cancel_left hchars)).2
    exact String.toList_inj.mp (List.append_cancel_left htail)
  · intro h
    rw [h]

theorem subject_key_inj (root subject other : String) :
    subjectKey root subject = subjectKey root other ↔ subject = other := by
  constructor
  · intro h
    have hchars := congrArg String.toList h
    rw [subject_key_chars, subject_key_chars] at hchars
    have htail := (List.cons.inj (List.append_cancel_left hchars)).2
    exact String.toList_inj.mp (List.append_cancel_left htail)
  · intro h
    rw [h]

variable (root : String)

/-! ## Bindings and sets on a server -/

def holder? (srv : Server) (id : String) : Option String :=
  match srv.slot? (tokenKey root id) with
  | some ⟨.text subject, _⟩ => some subject
  | _ => none

def listed (srv : Server) (subject : String) : List String :=
  match srv.slot? (subjectKey root subject) with
  | some ⟨.set ids, _⟩ => ids
  | _ => []

/-- Under the keys of ids there are texts, under those of subjects sets, all with deadlines. -/
structure Typed (srv : Server) : Prop where
  token : ∀ id x, srv.slot? (tokenKey root id) = some x → ∃ s t, x = ⟨.text s, some t⟩
  subject : ∀ s x, srv.slot? (subjectKey root s) = some x → ∃ ids t, x = ⟨.set ids, some t⟩

/-- If the id is bound to the subject, a set names it and lives at least as long. -/
def Covered (srv : Server) (id subject : String) : Prop :=
  ∀ t, srv.slot? (tokenKey root id) = some ⟨.text subject, some t⟩ →
    ∃ ids u, srv.slot? (subjectKey root subject) = some ⟨.set ids, some u⟩ ∧ id ∈ ids ∧ t ≤ u

variable {root}

theorem holder_iff (srv : Server) (id subject : String) :
    holder? root srv id = some subject ↔
      ∃ t, srv.slot? (tokenKey root id) = some ⟨.text subject, t⟩ := by
  cases h : srv.slot? (tokenKey root id) with
  | none => simp [holder?, h]
  | some x =>
    obtain ⟨value, t⟩ := x
    cases value <;> simp [holder?, h]

theorem mem_listed_iff (srv : Server) (id subject : String) :
    id ∈ listed root srv subject ↔
      ∃ ids t, srv.slot? (subjectKey root subject) = some ⟨.set ids, t⟩ ∧ id ∈ ids := by
  cases h : srv.slot? (subjectKey root subject) with
  | none => simp [listed, h]
  | some x =>
    obtain ⟨value, t⟩ := x
    cases value <;> simp [listed, h]

theorem listed_of_covered (srv : Server) (hsrv : Typed root srv) (id subject : String)
    (hheld : holder? root srv id = some subject) (h : Covered root srv id subject) :
    id ∈ listed root srv subject := by
  obtain ⟨t, ht⟩ := (holder_iff srv id subject).mp hheld
  obtain ⟨_, u, hx⟩ := hsrv.token id _ ht
  cases hx
  obtain ⟨ids, u, hset, hid, _⟩ := h _ ht
  exact (mem_listed_iff srv id subject).mpr ⟨ids, some u, hset, hid⟩

theorem run_get (srv : Server) (hsrv : Typed root srv) (id : String) :
    srv.runAll [.get (tokenKey root id)] = ([.text (holder? root srv id)], srv) := by
  cases h : srv.slot? (tokenKey root id) with
  | none => simp [Server.runAll, Server.run, holder?, h]
  | some x =>
    obtain ⟨s, t, rfl⟩ := hsrv.token id x h
    simp [Server.runAll, Server.run, holder?, h]

theorem run_members (srv : Server) (hsrv : Typed root srv) (subject : String) :
    srv.runAll [.members (subjectKey root subject)] = ([.members (listed root srv subject)], srv) := by
  cases h : srv.slot? (subjectKey root subject) with
  | none => simp [Server.runAll, Server.run, listed, h]
  | some x =>
    obtain ⟨ids, t, rfl⟩ := hsrv.subject subject x h
    simp [Server.runAll, Server.run, listed, h]

/-! ## The round trips that write -/

variable (root)

def putCommands (id subject : String) (ttl : Duration) : List Command :=
  [.setFor (tokenKey root id) subject (wholeSeconds ttl), .addMember (subjectKey root subject) id,
   .expireNew (subjectKey root subject) (wholeSeconds ttl),
   .expireLater (subjectKey root subject) (wholeSeconds ttl)]

def unbindCommands (id : String) (held : Option String) : List Command :=
  .delete (tokenKey root id) ::
    match held with
    | none => []
    | some subject => [.removeMember (subjectKey root subject) id]

def clearCommands (subject : String) (ids : List String) : List Command :=
  ids.map (fun id => .delete (tokenKey root id)) ++ [.delete (subjectKey root subject)]

variable {root}

theorem whole_seconds_pos (ttl : Duration) : 0 < (wholeSeconds ttl).toNat := by
  unfold wholeSeconds
  generalize ttl.secs + (if 0 < ttl.subsecNanos then 1 else 0) = n
  by_cases h : (1 : UInt64) ≤ n
  · have hmax : max 1 n = n := if_pos h
    rw [hmax]
    exact UInt64.le_iff_toNat_le.mp h
  · have hmax : max 1 n = 1 := if_neg h
    rw [hmax]
    decide

theorem put_token (srv : Server) (id subject : String) (ttl : Duration) :
    (srv.runAll (putCommands root id subject ttl)).2.slot? (tokenKey root id) =
      some ⟨.text subject, some (srv.deadlineAfter (wholeSeconds ttl))⟩ := by
  have hrest : ∀ c ∈ (putCommands root id subject ttl).tail, tokenKey root id ≠ c.key := by
    intro c hc
    simp only [putCommands, List.tail_cons, List.mem_cons, List.not_mem_nil, or_false] at hc
    rcases hc with rfl | rfl | rfl <;> exact token_key_ne_subject root id subject
  refine (Server.slot_run_all_other _ _ _ hrest).trans (Server.slot_place_live srv _ _ ?_)
  exact decide_eq_true (Server.now_lt_deadline srv _ (whole_seconds_pos ttl))

theorem put_other (srv : Server) (id subject : String) (ttl : Duration) (k : String)
    (htoken : k ≠ tokenKey root id) (hset : k ≠ subjectKey root subject) :
    (srv.runAll (putCommands root id subject ttl)).2.slot? k = srv.slot? k := by
  apply Server.slot_run_all_other
  intro c hc
  simp only [putCommands, List.mem_cons, List.not_mem_nil, or_false] at hc
  rcases hc with rfl | rfl | rfl | rfl <;> assumption

/-- The set of a subject after an id has joined it: of two deadlines the later one counts. -/
def joined (id : String) (deadline : Nat) : Option Slot → Slot
  | some ⟨.set ids, some t⟩ =>
    ⟨.set (if id ∈ ids then ids else ids ++ [id]), some (max t deadline)⟩
  | _ => ⟨.set [id], some deadline⟩

theorem put_slot (srv : Server) (hsrv : Typed root srv) (id subject : String) (ttl : Duration) :
    (srv.runAll (putCommands root id subject ttl)).2.slot? (subjectKey root subject) =
      some (joined id (srv.deadlineAfter (wholeSeconds ttl))
        (srv.slot? (subjectKey root subject))) := by
  have hpos := whole_seconds_pos ttl
  let key := subjectKey root subject
  let deadline := srv.deadlineAfter (wholeSeconds ttl)
  let bound := (srv.run (.setFor (tokenKey root id) subject (wholeSeconds ttl))).2
  let added := (bound.run (.addMember key id)).2
  let kept := (added.run (.expireNew key (wholeSeconds ttl))).2
  have hnow : added.now = srv.now := (Server.now_run _ _).trans (Server.now_run _ _)
  have hnow' : kept.now = srv.now := (Server.now_run _ _).trans hnow
  have hadded : added.slot? key = Server.grown id (srv.slot? key) := by
    have hother := Server.slot_run_other srv
      (.setFor (tokenKey root id) subject (wholeSeconds ttl)) key
      (token_key_ne_subject root id subject).symm
    exact (Server.slot_add_member bound key id).trans (congrArg _ hother)
  have hkept : kept.slot? key = (added.slot? key).map fun x =>
      if x.deadline.isNone then ⟨x.value, some deadline⟩ else x := by
    have h := Server.slot_expire_new added key (wholeSeconds ttl) hpos
    rwa [Server.deadlineAfter, hnow] at h
  have hlast : (srv.runAll (putCommands root id subject ttl)).2.slot? key =
      (kept.slot? key).map fun x =>
        if x.deadline.any (· < deadline) then ⟨x.value, some deadline⟩ else x := by
    have h := Server.slot_expire_later kept key (wholeSeconds ttl) hpos
    rwa [Server.deadlineAfter, hnow'] at h
  rw [hlast, hkept, hadded]
  cases hslot : srv.slot? key with
  | none => simp [Server.grown, joined, deadline]
  | some x =>
    obtain ⟨ids, t, rfl⟩ := hsrv.subject subject x hslot
    by_cases ht : t < deadline
    · simp [Server.grown, joined, deadline, ht, Nat.max_eq_right (Nat.le_of_lt ht)]
    · simp [Server.grown, joined, deadline, ht, Nat.max_eq_left (Nat.le_of_not_lt ht)]

theorem put_set (srv : Server) (hsrv : Typed root srv) (id subject : String) (ttl : Duration) :
    ∃ ids u, (srv.runAll (putCommands root id subject ttl)).2.slot? (subjectKey root subject) =
        some ⟨.set ids, some u⟩ ∧
      (∀ x, x ∈ ids ↔ x ∈ listed root srv subject ∨ x = id) ∧
      srv.deadlineAfter (wholeSeconds ttl) ≤ u ∧
      ∀ old t, srv.slot? (subjectKey root subject) = some ⟨.set old, some t⟩ → t ≤ u := by
  rw [put_slot srv hsrv]
  cases hslot : srv.slot? (subjectKey root subject) with
  | none => exact ⟨_, _, rfl, by simp [listed, hslot], Nat.le_refl _, by simp⟩
  | some x =>
    obtain ⟨ids, t, rfl⟩ := hsrv.subject subject x hslot
    refine ⟨_, _, rfl, ?_, Nat.le_max_right _ _, ?_⟩
    · intro x
      by_cases hid : id ∈ ids
      · simp only [listed, hslot, if_pos hid]
        exact ⟨Or.inl, fun h => h.elim (fun h => h) (fun h => h ▸ hid)⟩
      · simp [listed, hslot, hid]
    · intro old u h
      cases h
      exact Nat.le_max_left _ _

theorem unbind_token (srv : Server) (id : String) (held : Option String) :
    (srv.runAll (unbindCommands root id held)).2.slot? (tokenKey root id) = none := by
  have hrest : ∀ c ∈ (unbindCommands root id held).tail, tokenKey root id ≠ c.key := by
    intro c hc
    cases held with
    | none => cases hc
    | some subject =>
      rw [List.mem_singleton.mp hc]
      exact token_key_ne_subject root id subject
  exact (Server.slot_run_all_other _ _ _ hrest).trans
    ((Server.slot_erase srv _ _).trans (if_pos rfl))

theorem unbind_token_other (srv : Server) (id : String) (held : Option String) (x : String)
    (hx : x ≠ id) :
    (srv.runAll (unbindCommands root id held)).2.slot? (tokenKey root x) =
      srv.slot? (tokenKey root x) := by
  apply Server.slot_run_all_other
  intro c hc
  rcases List.mem_cons.mp hc with rfl | hc
  · exact fun h => hx ((token_key_inj root x id).mp h)
  · cases held with
    | none => cases hc
    | some subject =>
      rw [List.mem_singleton.mp hc]
      exact token_key_ne_subject root x subject

theorem unbind_set (srv : Server) (id : String) (held : Option String) (subject : String) :
    (srv.runAll (unbindCommands root id held)).2.slot? (subjectKey root subject) =
      if held = some subject then Server.shrunk id (srv.slot? (subjectKey root subject))
      else srv.slot? (subjectKey root subject) := by
  have herased : (srv.run (.delete (tokenKey root id))).2.slot? (subjectKey root subject) =
      srv.slot? (subjectKey root subject) :=
    Server.slot_run_other srv _ _ (token_key_ne_subject root id subject).symm
  cases held with
  | none => exact herased.trans (if_neg (by simp)).symm
  | some s =>
    by_cases hs : s = subject
    · subst hs
      rw [if_pos rfl]
      exact (Server.slot_remove_member _ _ _).trans (congrArg _ herased)
    · have hne : subjectKey root subject ≠ subjectKey root s :=
        fun h => hs ((subject_key_inj root subject s).mp h).symm
      rw [if_neg (fun h => hs (Option.some.inj h))]
      exact (Server.slot_run_other _ (.removeMember (subjectKey root s) id) _ hne).trans herased

theorem clear_slot (srv : Server) (subject : String) (ids : List String) (k : String) :
    (srv.runAll (clearCommands root subject ids)).2.slot? k =
      if k ∈ ids.map (tokenKey root) ∨ k = subjectKey root subject then none else srv.slot? k := by
  have hcommands : clearCommands root subject ids =
      (ids.map (tokenKey root) ++ [subjectKey root subject]).map .delete := by
    simp [clearCommands]
  rw [hcommands, Server.slot_delete_all]
  simp only [List.mem_append, List.mem_singleton]

theorem clear_token (srv : Server) (subject : String) (ids : List String) (id : String) :
    (srv.runAll (clearCommands root subject ids)).2.slot? (tokenKey root id) =
      if id ∈ ids then none else srv.slot? (tokenKey root id) := by
  rw [clear_slot]
  have hmem : tokenKey root id ∈ ids.map (tokenKey root) ↔ id ∈ ids := by
    constructor
    · intro h
      obtain ⟨x, hx, hkey⟩ := List.mem_map.mp h
      exact (token_key_inj root x id).mp hkey ▸ hx
    · exact List.mem_map_of_mem
  simp only [hmem, token_key_ne_subject root id subject, or_false]

theorem clear_set (srv : Server) (subject : String) (ids : List String) (s : String) :
    (srv.runAll (clearCommands root subject ids)).2.slot? (subjectKey root s) =
      if s = subject then none else srv.slot? (subjectKey root s) := by
  rw [clear_slot]
  have hmem : subjectKey root s ∉ ids.map (tokenKey root) := by
    intro h
    obtain ⟨x, _, hkey⟩ := List.mem_map.mp h
    exact token_key_ne_subject root x s hkey
  simp only [hmem, false_or, subject_key_inj]

end Countersign.SharedBindings
