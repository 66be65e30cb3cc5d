import Countersign.Proofs.Binding.Kept
import Mathlib.Data.List.Nodup

/-!
# What a client that is alone is answered

A client that no other one disturbs meets no value of the wrong kind. It is told
what its id is bound to, and how many of the ids that it has read were bound.
-/

set_option autoImplicit false

namespace Countersign.SharedBindings

open Server (Reply)

variable {root : String}

theorem get_answer (srv : Server) (hsrv : Typed root srv) (id : String) :
    (getScript root id).run srv = (.ok (holder? root srv id), srv) := by
  simp only [getScript, Script.run, run_get srv hsrv]

theorem put_right (srv : Server) (hsrv : Typed root srv) (id subject : String) (ttl : Duration) :
    Reply.wrongKind ∉ (srv.runAll (putCommands root id subject ttl)).1 := by
  let key := subjectKey root subject
  let bound := (srv.run (.setFor (tokenKey root id) subject (wholeSeconds ttl))).2
  have hadded : (bound.addMember key id).1 ≠ .wrongKind := by
    apply Server.add_member_right
    intro x t h
    have hother := Server.slot_run_other srv
      (.setFor (tokenKey root id) subject (wholeSeconds ttl)) key
      (token_key_ne_subject root id subject).symm
    obtain ⟨ids, u, hset⟩ := hsrv.subject subject _ (hother.symm.trans h)
    cases hset
  have hfirst := Server.expire_right (bound.addMember key id).2 key
  have hlast := Server.expire_right ((bound.addMember key id).2.run
    (.expireNew key (wholeSeconds ttl))).2 key
  intro h
  simp only [putCommands, Server.runAll, List.mem_cons, List.not_mem_nil, or_false] at h
  rcases h with h | h | h | h
  · cases h
  · exact hadded h.symm
  · exact hfirst _ _ h.symm
  · exact hlast _ _ h.symm

theorem put_answer (srv : Server) (hsrv : Typed root srv) (id subject : String) (ttl : Duration) :
    (putScript root id subject ttl).run srv =
      (.ok (), (srv.runAll (putCommands root id subject ttl)).2) := by
  have hright := put_right srv hsrv id subject ttl
  simp only [putCommands] at hright
  simp only [putScript, Script.run, unlessWrong, putCommands, if_neg hright]

theorem unbind_right (srv : Server) (hsrv : Typed root srv) (id : String) (held : Option String) :
    Reply.wrongKind ∉ (srv.runAll (unbindCommands root id held)).1 := by
  cases held with
  | none => simp [unbindCommands, Server.runAll, Server.run]
  | some subject =>
    have hremoved : ((srv.run (.delete (tokenKey root id))).2.removeMember
        (subjectKey root subject) id).1 ≠ .wrongKind := by
      apply Server.remove_member_right
      intro x t h
      have hother := Server.slot_run_other srv (.delete (tokenKey root id))
        (subjectKey root subject) (token_key_ne_subject root id subject).symm
      obtain ⟨ids, u, hset⟩ := hsrv.subject subject _ (hother.symm.trans h)
      cases hset
    intro h
    simp only [unbindCommands, Server.runAll, List.mem_cons, List.not_mem_nil, or_false] at h
    rcases h with h | h
    · cases h
    · exact hremoved h.symm

theorem remove_answer (srv : Server) (hsrv : Typed root srv) (id : String) :
    (removeScript root id).run srv =
      (.ok (), (srv.runAll (unbindCommands root id (holder? root srv id))).2) := by
  have hright := unbind_right srv hsrv id (holder? root srv id)
  cases hheld : holder? root srv id with
  | none =>
    rw [hheld] at hright
    simp only [unbindCommands] at hright
    simp only [removeScript, Script.run, run_get srv hsrv, hheld, unlessWrong, unbindCommands,
      if_neg hright]
  | some subject =>
    rw [hheld] at hright
    simp only [unbindCommands] at hright
    simp only [removeScript, Script.run, run_get srv hsrv, hheld, unlessWrong, unbindCommands,
      if_neg hright]

theorem total_from (start : Nat) (p : String → Bool) (ids : List String) :
    (ids.map fun id => Reply.count (if p id then 1 else 0)).foldl
        (fun n r => match r with | .count k => n + k | _ => n) start =
      start + ids.countP p := by
  induction ids generalizing start with
  | nil => rfl
  | cons id ids ih =>
    rw [List.map_cons, List.foldl_cons, ih, List.countP_cons]
    by_cases hid : p id = true <;> simp only [hid] <;> omega

theorem total_counts (p : String → Bool) (ids : List String) :
    total (ids.map fun id => .count (if p id then 1 else 0)) = ids.countP p :=
  (total_from 0 p ids).trans (Nat.zero_add _)

theorem token_slot_some (srv : Server) (hsrv : Typed root srv) (id : String) :
    (srv.slot? (tokenKey root id)).isSome = (holder? root srv id).isSome := by
  cases h : srv.slot? (tokenKey root id) with
  | none => simp [holder?, h]
  | some x =>
    obtain ⟨s, t, rfl⟩ := hsrv.token id x h
    simp [holder?, h]

theorem clear_replies (srv : Server) (hsrv : Typed root srv) (subject : String)
    (ids : List String) (hids : ids.Nodup) :
    ∃ last, (srv.runAll (clearCommands root subject ids)).1 =
      (ids.map fun id => Reply.count (if (holder? root srv id).isSome then 1 else 0)) ++
        [.count last] := by
  have hcommands : clearCommands root subject ids =
      (ids.map (tokenKey root) ++ [subjectKey root subject]).map .delete := by
    simp [clearCommands]
  have hkeys : (ids.map (tokenKey root) ++ [subjectKey root subject]).Nodup := by
    refine List.nodup_append.mpr ⟨?_, List.nodup_singleton _, ?_⟩
    · exact List.Nodup.map (fun x y h => (token_key_inj root x y).mp h) hids
    · intro k hk other hother
      obtain ⟨id, _, rfl⟩ := List.mem_map.mp hk
      rw [List.mem_singleton.mp hother]
      exact token_key_ne_subject root id subject
  rw [hcommands, Server.replies_delete_all srv _ hkeys, List.map_append, List.map_map]
  simp only [Function.comp_def, token_slot_some srv hsrv]
  exact ⟨_, rfl⟩

/-- Of the ids that a set names those are counted that are bound to any subject at all. -/
theorem remove_subject_answer (srv : Server) (hsrv : Typed root srv) (subject : String)
    (hnamed : (listed root srv subject).Nodup) :
    (removeSubjectScript root subject).run srv =
      (.ok ((listed root srv subject).countP fun id => (holder? root srv id).isSome),
        (srv.runAll (clearCommands root subject (listed root srv subject))).2) := by
  obtain ⟨last, hreplies⟩ := clear_replies srv hsrv subject _ hnamed
  have hcount := total_counts (fun id => (holder? root srv id).isSome) (listed root srv subject)
  simp only [clearCommands] at hreplies
  simp only [removeSubjectScript, Script.run, run_members srv hsrv, unlessWrong, clearCommands,
    hreplies]
  rw [List.take_left' (List.length_map _), hcount, if_neg (by simp)]

end Countersign.SharedBindings
