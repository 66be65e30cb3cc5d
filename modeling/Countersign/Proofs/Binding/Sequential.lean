import Countersign.Proofs.Binding.Answers
import Countersign.Proofs.Binding.Overtaken

/-!
# One operation after the other

Where every operation ends before the next one begins, no removal of a subject is
overtaken, however much time passes between its round trips. So the set of a
subject names all ids that are bound to it and outlives their bindings, and a
removal of the subject leaves none of them.
-/

set_option autoImplicit false

namespace Countersign.SharedBindings

def Move.begins : Move → Bool
  | .begin _ => true
  | _ => false

variable (root : String)

/-- An operation begins only when all earlier ones have ended. -/
def Sequential (schedule : List Move) : Prop :=
  ∀ n : Fin schedule.length, schedule[n].begins = true →
    (Pool.run root (schedule.take n)).clients.all Client.isDone = true

instance (schedule : List Move) : Decidable (Sequential root schedule) :=
  inferInstanceAs (Decidable (∀ n : Fin schedule.length, schedule[n].begins = true →
    (Pool.run root (schedule.take n)).clients.all Client.isDone = true))

def Ends (p : Pool) (i : Nat) (o : Operation) : Prop :=
  ∃ c, p.clients[i]? = some c ∧ c.operation = o ∧ c.isDone = false ∧
    (c.advance p.server).1.isDone = true

variable {root}

theorem sequential_snoc (schedule : List Move) (m : Move)
    (h : Sequential root (schedule ++ [m])) :
    Sequential root schedule ∧
      (m.begins = true → ∀ c ∈ (Pool.run root schedule).clients, c.isDone = true) := by
  constructor
  · intro n hn
    have hlt : n.val < (schedule ++ [m]).length := by
      rw [List.length_append]
      exact Nat.lt_add_right _ n.isLt
    have hearlier := h ⟨n.val, hlt⟩
    simp only [Fin.getElem_fin, List.getElem_append_left n.isLt] at hearlier
    rw [List.take_append_of_le_length (Nat.le_of_lt n.isLt)] at hearlier
    exact hearlier hn
  · intro hm
    have hlt : schedule.length < (schedule ++ [m]).length := by simp
    have hlast := h ⟨schedule.length, hlt⟩
    simp only [Fin.getElem_fin, List.getElem_concat_length, List.take_left'] at hlast
    exact List.all_eq_true.mp (hlast hm)

theorem sequential_take (schedule : List Move) (n : Nat) (h : Sequential root schedule) :
    Sequential root (schedule.take n) := by
  induction schedule using List.reverseRecOn with
  | nil =>
    rw [List.take_nil]
    exact h
  | append_singleton schedule m ih =>
    rcases Nat.lt_or_ge schedule.length n with hlt | hle
    · have hall : (schedule ++ [m]).length ≤ n := by simpa using Nat.succ_le_of_lt hlt
      rw [List.take_of_length_le hall]
      exact h
    · rw [List.take_append_of_le_length hle]
      exact ih (sequential_snoc schedule m h).1

theorem sequential_advance (schedule : List Move) (i : Nat) (h : Sequential root schedule) :
    Sequential root (schedule ++ [.advance i]) := by
  intro n hn
  rcases Nat.lt_or_ge n.val schedule.length with hlt | hge
  · have hearlier := h ⟨n.val, hlt⟩
    simp only [Fin.getElem_fin, List.getElem_append_left hlt] at hn hearlier
    rw [List.take_append_of_le_length (Nat.le_of_lt hlt)]
    exact hearlier hn
  · simp only [Fin.getElem_fin, List.getElem_append_right hge, List.getElem_singleton] at hn
    cases hn

theorem active_before (p : Pool) (hp : Sound root p) (i k : Nat) (c : Client)
    (hk : (p.step root (.advance i)).clients[k]? = some c) (hc : c.isDone = false) :
    ∃ d, p.clients[k]? = some d ∧ d.isDone = false := by
  rcases step_advance p hp i with ⟨_, hstep⟩ | ⟨d, d', srv, hi, hadvances, hstep⟩
  · rw [hstep] at hk
    exact ⟨c, hk, hc⟩
  · rw [hstep, List.getElem?_set] at hk
    by_cases hik : i = k
    · subst hik
      have hlt : i < p.clients.length := (List.getElem?_eq_some_iff.mp hi).1
      rw [if_pos rfl, if_pos hlt] at hk
      cases hk
      refine ⟨d, hi, ?_⟩
      cases hadvances with
      | put => cases hc
      | get => cases hc
      | look => rfl
      | unbind => cases hc
      | read => rfl
      | clear => cases hc
      | rest => exact hc
    · rw [if_neg hik] at hk
      exact ⟨c, hk, hc⟩

/-- At most one client is in the middle of its operation. -/
theorem active_unique (schedule : List Move) (h : Sequential root schedule) (i j : Nat)
    (c d : Client) (hi : (Pool.run root schedule).clients[i]? = some c)
    (hj : (Pool.run root schedule).clients[j]? = some d) (hc : c.isDone = false)
    (hd : d.isDone = false) : i = j := by
  induction schedule using List.reverseRecOn generalizing i j c d with
  | nil => cases hi
  | append_singleton schedule m ih =>
    obtain ⟨hearlier, hbegins⟩ := sequential_snoc schedule m h
    rw [Pool.run_snoc] at hi hj
    cases m with
    | wait ms => exact ih hearlier i j c d hi hj hc hd
    | begin o =>
      -- all that began earlier have ended, so the newcomer is the only one
      have hnew : ∀ k e, ((Pool.run root schedule).clients ++ [fresh root o])[k]? = some e →
          e.isDone = false → k = (Pool.run root schedule).clients.length := by
        intro k e hk he
        rcases get_snoc _ _ e k hk with hold | ⟨hlast, _⟩
        · rw [hbegins rfl e (List.mem_of_getElem? hold)] at he
          cases he
        · exact hlast
      exact (hnew i c hi hc).trans (hnew j d hj hd).symm
    | advance k =>
      have hsound : Sound root (Pool.run root schedule) := run_sound schedule
      obtain ⟨c', hi', hc'⟩ := active_before _ hsound k i c hi hc
      obtain ⟨d', hj', hd'⟩ := active_before _ hsound k j d hj hd
      exact ih hearlier i j c' d' hi' hj' hc' hd'

theorem sequential_covered (schedule : List Move) (h : Sequential root schedule)
    (id subject : String)
    (hheld : holder? root (Pool.run root schedule).server id = some subject) :
    Covered root (Pool.run root schedule).server id subject := by
  obtain ⟨n, i, haccounted⟩ := run_accounted schedule id subject hheld
  rcases haccounted.fate with ⟨hcovered, _⟩ | ⟨_, j, ids, _, hclears, _⟩
  · exact hcovered
  · obtain ⟨ttl, hputs⟩ := haccounted.put.puts
    have hsame := active_unique _ (sequential_take schedule n h) i j _ _ hputs hclears
      (fresh_not_done _) rfl
    subst hsame
    unfold Clears at hclears
    rw [hputs] at hclears
    exact absurd (Option.some.inj hclears) (fresh_ne_clearing _ _ _)

theorem deletes_right (srv : Server) (keys : List String) :
    Server.Reply.wrongKind ∉ (srv.runAll (keys.map .delete)).1 := by
  induction keys generalizing srv with
  | nil => exact List.not_mem_nil
  | cons key keys ih =>
    intro h
    rcases List.mem_cons.mp h with hhead | htail
    · cases hhead
    · exact ih _ htail

theorem replies_right (srv : Server) (hsrv : Typed root srv) (c : Client) (hc : Known root c) :
    Server.Reply.wrongKind ∉ (srv.runAll c.commands).1 := by
  cases hc with
  | unbinding id held => exact unbind_right srv hsrv id held
  | clearing subject ids =>
    have hcommands : (clearing root subject ids).commands =
        (ids.map (tokenKey root) ++ [subjectKey root subject]).map .delete := by
      simp [clearing, clearCommands, Client.commands]
    rw [hcommands]
    exact deletes_right srv _
  | done o answer => exact List.not_mem_nil
  | fresh o =>
    cases o with
    | put id subject ttl => exact put_right srv hsrv id subject ttl
    | get id =>
      show Server.Reply.wrongKind ∉ (srv.runAll [.get (tokenKey root id)]).1
      simp [run_get srv hsrv]
    | remove id =>
      show Server.Reply.wrongKind ∉ (srv.runAll [.get (tokenKey root id)]).1
      simp [run_get srv hsrv]
    | removeSubject subject =>
      show Server.Reply.wrongKind ∉ (srv.runAll [.members (subjectKey root subject)]).1
      simp [run_members srv hsrv]

theorem removal_ends (p : Pool) (hp : Sound root p) (i : Nat) (subject : String)
    (h : Ends p i (.removeSubject subject)) : ∃ ids, Clears root p i subject ids := by
  obtain ⟨c, hi, hoperation, hactive, hlast⟩ := h
  have hadvances := advances p.server hp.typed c (hp.known i c hi)
  generalize (c.advance p.server).1 = c' at hadvances hlast
  generalize (c.advance p.server).2 = srv' at hadvances
  cases hadvances with
  | put => cases hoperation
  | get => cases hoperation
  | look => cases hoperation
  | unbind => cases hoperation
  | read => cases hlast
  | rest => cases hactive
  | clear s ids answer =>
    cases hoperation
    exact ⟨ids, hi⟩

/-- In every state between the round trips of operations that follow each other, each bound id is
named in the set of its subject, which has a deadline and vanishes no earlier than the binding; no
command meets a value of the wrong kind; and when the removal of a subject has ended, nothing is
bound to the subject. -/
theorem sets_outlive_bindings (schedule : List Move) (h : Sequential root schedule) :
    (∀ id x, (Pool.run root schedule).server.slot? (tokenKey root id) = some x →
      ∃ subject t ids u, x = ⟨.text subject, some t⟩ ∧
        (Pool.run root schedule).server.slot? (subjectKey root subject) =
          some ⟨.set ids, some u⟩ ∧ id ∈ ids ∧ t ≤ u) ∧
    (∀ c ∈ (Pool.run root schedule).clients,
      .wrongKind ∉ ((Pool.run root schedule).server.runAll c.commands).1) ∧
    (∀ i subject, Ends (Pool.run root schedule) i (.removeSubject subject) →
      ∀ id, holder? root ((Pool.run root schedule).step root (.advance i)).server id ≠
        some subject) := by
  have hsound : Sound root (Pool.run root schedule) := run_sound schedule
  refine ⟨?_, ?_, ?_⟩
  · intro id x hx
    obtain ⟨subject, t, rfl⟩ := hsound.typed.token id x hx
    have hheld := (holder_iff _ id subject).mpr ⟨some t, hx⟩
    obtain ⟨ids, u, hset, hid, hle⟩ := sequential_covered schedule h id subject hheld t hx
    exact ⟨subject, t, ids, u, rfl, hset, hid, hle⟩
  · intro c hc
    obtain ⟨i, hi⟩ := List.getElem?_of_mem hc
    exact replies_right _ hsound.typed c (hsound.known i c hi)
  · intro i subject hends id hheld
    obtain ⟨ids, hclears⟩ := removal_ends _ hsound i subject hends
    obtain ⟨c, _, hstep⟩ := clear_step _ i subject ids hclears
    -- what is still bound would be named in a set that has just been taken away
    have hnext := sequential_advance schedule i h
    rw [← Pool.run_snoc] at hheld
    have hcovered := sequential_covered _ hnext id subject hheld
    have hnamed := listed_of_covered _ (run_sound _).typed id subject hheld hcovered
    rw [Pool.run_snoc, hstep, clear_listed] at hnamed
    cases hnamed

/-- Bindings of one subject with a shorter and a longer life, of which one is removed and one ends;
then the removal of the subject, which has read its set. -/
def settling : List Move :=
  [.begin (.put "a" "alice" (Duration.ofSecs 5)), .advance 0, .wait 1000,
    .begin (.put "b" "alice" (Duration.ofSecs 60)), .advance 1,
    .begin (.remove "a"), .advance 2, .wait 500, .advance 2,
    .begin (.put "c" "alice" (Duration.ofSecs 1)), .advance 3, .wait 2000,
    .begin (.removeSubject "alice"), .advance 4]

theorem sets_outlive_bindings_settling :
    Sequential "keystamp:binding:" settling ∧
      holder? "keystamp:binding:" (Pool.run "keystamp:binding:" settling).server "b" =
        some "alice" ∧
      Ends (Pool.run "keystamp:binding:" settling) 4 (.removeSubject "alice") ∧
      holder? "keystamp:binding:"
        ((Pool.run "keystamp:binding:" settling).step "keystamp:binding:" (.advance 4)).server "b" ≠
          some "alice" := by
  have hsequential : Sequential "keystamp:binding:" settling := by decide +kernel
  have hheld : holder? "keystamp:binding:" (Pool.run "keystamp:binding:" settling).server "b" =
      some "alice" := by decide +kernel
  have hends : Ends (Pool.run "keystamp:binding:" settling) 4 (.removeSubject "alice") :=
    ⟨_, rfl, rfl, rfl, rfl⟩
  exact ⟨hsequential, hheld, hends,
    (sets_outlive_bindings settling hsequential).2.2 4 "alice" hends "b"⟩

end Countersign.SharedBindings
