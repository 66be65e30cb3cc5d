import Countersign.Proofs.Binding.Clients

/-!
# Bindings that escape the removal of their subject

The removal of a subject reads a set and takes it away one round trip later. An id
that is bound in between stays bound, but no set names it any more, and no later
removal of the subject finds it. This is the only way in which an index loses a
live binding, whatever the clients do and in whatever order.
-/

set_option autoImplicit false

namespace Countersign.SharedBindings

variable (root : String)

def Puts (p : Pool) (i : Nat) (id subject : String) : Prop :=
  ∃ ttl, p.clients[i]? = some (fresh root (.put id subject ttl))

def Clears (p : Pool) (j : Nat) (subject : String) (ids : List String) : Prop :=
  p.clients[j]? = some (clearing root subject ids)

def Finished (p : Pool) (j : Nat) : Prop := ∃ c, p.clients[j]? = some c ∧ c.isDone = true

/-- The move at a place of a schedule binds an id, and no later one binds it again. -/
structure LastPut (schedule : List Move) (n i : Nat) (id subject : String) : Prop where
  move : schedule[n]? = some (.advance i)
  puts : Puts root (Pool.run root (schedule.take n)) i id subject
  last : ∀ m k s, n < m → schedule[m]? = some (.advance k) →
    ¬ Puts root (Pool.run root (schedule.take m)) k id s

/-- When the id was last bound, some removal of the subject had already read a set without it, and
that removal has since been carried out. -/
def Overtaken (schedule : List Move) (id subject : String) : Prop :=
  ∃ n i j ids, LastPut root schedule n i id subject ∧ id ∉ ids ∧
    Clears root (Pool.run root (schedule.take n)) j subject ids ∧
    Finished (Pool.run root schedule) j

variable {root}

/-! ## Stages of one client apart -/

theorem clear_commands_ne (subject : String) (ids : List String) (key : String) :
    clearCommands root subject ids ≠ [.members key] := by
  cases ids <;> simp [clearCommands]

theorem clearing_inj (s subject : String) (xs ids : List String)
    (h : clearing root s xs = clearing root subject ids) : s = subject ∧ xs = ids := by
  have hsubject : s = subject := by
    have hoperation := congrArg Client.operation h
    simpa [clearing] using hoperation
  subst hsubject
  have hcommands : clearCommands root s xs = clearCommands root s ids := congrArg Client.commands h
  have hmap := List.append_cancel_right hcommands
  refine ⟨rfl, (List.map_inj_right ?_).mp hmap⟩
  intro x y hxy
  exact (token_key_inj root x y).mp (Server.Command.delete.inj hxy)

theorem fresh_not_done (o : Operation) : (fresh root o).isDone = false := by
  cases o <;> rfl

theorem fresh_ne_clearing (o : Operation) (subject : String) (ids : List String) :
    fresh root o ≠ clearing root subject ids := by
  intro h
  cases o with
  | removeSubject s => exact clear_commands_ne subject ids _ (congrArg Client.commands h).symm
  | put => cases congrArg Client.operation h
  | get => cases congrArg Client.operation h
  | remove => cases congrArg Client.operation h

theorem ne_clearing_of_done (c : Client) (hc : c.isDone = true) (subject : String)
    (ids : List String) : c ≠ clearing root subject ids := by
  rintro rfl
  cases hc

theorem clears_set (p : Pool) (srv : Server) (i : Nat) (c c' : Client)
    (hi : p.clients[i]? = some c) (subject : String) (ids : List String)
    (hc : c ≠ clearing root subject ids) (hc' : c' ≠ clearing root subject ids) (j : Nat) :
    Clears root ⟨srv, p.clients.set i c'⟩ j subject ids ↔ Clears root p j subject ids := by
  have hlt : i < p.clients.length := (List.getElem?_eq_some_iff.mp hi).1
  unfold Clears
  by_cases hj : i = j
  · subst hj
    rw [List.getElem?_set_self hlt, hi]
    simp [hc, hc']
  · rw [List.getElem?_set_ne hj]

theorem finished_set (p : Pool) (srv : Server) (i : Nat) (c c' : Client)
    (hi : p.clients[i]? = some c) (hc : c.isDone = true → c'.isDone = true) (j : Nat)
    (h : Finished p j) : Finished ⟨srv, p.clients.set i c'⟩ j := by
  have hlt : i < p.clients.length := (List.getElem?_eq_some_iff.mp hi).1
  obtain ⟨d, hd, hdone⟩ := h
  by_cases hj : i = j
  · subst hj
    rw [hi] at hd
    cases hd
    exact ⟨c', List.getElem?_set_self hlt, hc hdone⟩
  · exact ⟨d, (List.getElem?_set_ne hj).trans hd, hdone⟩

theorem ne_fresh_of_operation (c : Client) (o : Operation) (h : c.operation ≠ o) :
    c ≠ fresh root o := by
  rintro rfl
  exact h rfl

theorem ne_fresh_of_done (c : Client) (o : Operation) (h : c.isDone = true) : c ≠ fresh root o := by
  rintro rfl
  rw [fresh_not_done] at h
  cases h

theorem ne_clearing_of_operation (c : Client) (subject : String) (ids : List String)
    (h : c.operation ≠ .removeSubject subject) : c ≠ clearing root subject ids := by
  rintro rfl
  exact h rfl

/-! ## One round trip -/

/-- A round trip that neither binds the id nor takes its name from the set of the subject. -/
structure Calm (root : String) (srv : Server) (c c' : Client) (srv' : Server) (id subject : String) :
    Prop where
  puts : ∀ s ttl, c ≠ fresh root (.put id s ttl)
  clears : ∀ ids, id ∉ ids → c ≠ clearing root subject ids
  reads : id ∈ listed root srv subject → ∀ ids, id ∉ ids → c' ≠ clearing root subject ids
  finishes : c.isDone = true → c'.isDone = true
  keeps : Keeps root srv srv' id subject

theorem keeps_refl (srv : Server) (id subject : String) : Keeps root srv srv id subject :=
  keeps_of_slots srv srv id subject rfl rfl

theorem advances_cases (srv srv' : Server) (hsrv : Typed root srv) (c c' : Client)
    (h : Advances root srv c c' srv') (id subject : String) :
    (∃ s ttl, c = fresh root (.put id s ttl)) ∨
      (∃ ids, c = clearing root subject ids ∧ id ∉ ids) ∨ Calm root srv c c' srv' id subject := by
  cases h with
  | put x s ttl answer =>
    by_cases hx : x = id
    · exact Or.inl ⟨s, ttl, by rw [hx]⟩
    · refine Or.inr (Or.inr ⟨?_, ?_, ?_, fun _ => rfl, put_keeps srv hsrv x s ttl id subject ?_⟩)
      · intro s' ttl'
        exact ne_fresh_of_operation _ _ (fun ho => hx (Operation.put.inj ho).1)
      · exact fun ids _ => fresh_ne_clearing _ _ _
      · exact fun _ ids _ => ne_clearing_of_done _ rfl _ _
      · exact Ne.symm hx
  | get x answer =>
    refine Or.inr (Or.inr ⟨?_, ?_, ?_, fun _ => rfl, keeps_refl _ _ _⟩)
    · exact fun s ttl => ne_fresh_of_operation _ _ (fun ho => by cases ho)
    · exact fun ids _ => fresh_ne_clearing _ _ _
    · exact fun _ ids _ => ne_clearing_of_done _ rfl _ _
  | look x =>
    refine Or.inr (Or.inr ⟨?_, ?_, ?_, ?_, keeps_refl _ _ _⟩)
    · exact fun s ttl => ne_fresh_of_operation _ _ (fun ho => by cases ho)
    · exact fun ids _ => fresh_ne_clearing _ _ _
    · exact fun _ ids _ => ne_clearing_of_operation _ _ _ (fun ho => by cases ho)
    · intro hdone
      rw [fresh_not_done] at hdone
      cases hdone
  | unbind x held answer =>
    refine Or.inr (Or.inr ⟨?_, ?_, ?_, fun _ => rfl, unbind_keeps srv hsrv x held id subject⟩)
    · exact fun s ttl => ne_fresh_of_operation _ _ (fun ho => by cases ho)
    · exact fun ids _ => ne_clearing_of_operation _ _ _ (fun ho => by cases ho)
    · exact fun _ ids _ => ne_clearing_of_done _ rfl _ _
  | read s =>
    refine Or.inr (Or.inr ⟨?_, ?_, ?_, ?_, keeps_refl _ _ _⟩)
    · exact fun s' ttl => ne_fresh_of_operation _ _ (fun ho => by cases ho)
    · exact fun ids _ => fresh_ne_clearing _ _ _
    · -- as long as the set names the id, so do the ids that are read from it
      intro hnamed ids hids heq
      obtain ⟨rfl, rfl⟩ := clearing_inj _ _ _ _ heq
      exact hids hnamed
    · intro hdone
      rw [fresh_not_done] at hdone
      cases hdone
  | clear s ids answer =>
    by_cases hmissed : s = subject ∧ id ∉ ids
    · obtain ⟨rfl, hids⟩ := hmissed
      exact Or.inr (Or.inl ⟨ids, rfl, hids⟩)
    · have hread : id ∈ ids ∨ subject ≠ s := by
        by_cases hids : id ∈ ids
        · exact Or.inl hids
        · exact Or.inr (fun hs => hmissed ⟨hs.symm, hids⟩)
      refine Or.inr (Or.inr ⟨?_, ?_, ?_, fun _ => rfl, clear_keeps srv s ids id subject hread⟩)
      · exact fun s' ttl => ne_fresh_of_operation _ _ (fun ho => by cases ho)
      · intro xs hxs heq
        obtain ⟨rfl, rfl⟩ := clearing_inj _ _ _ _ heq
        exact hmissed ⟨rfl, hxs⟩
      · exact fun _ xs _ => ne_clearing_of_done _ rfl _ _
  | rest o answer =>
    refine Or.inr (Or.inr ⟨?_, ?_, ?_, fun hdone => hdone, keeps_refl _ _ _⟩)
    · exact fun s ttl => ne_fresh_of_done _ _ rfl
    · exact fun ids _ => ne_clearing_of_done _ rfl _ _
    · exact fun _ ids _ => ne_clearing_of_done _ rfl _ _

/-! ## One move -/

structure Quiet (root : String) (p next : Pool) (id subject : String) : Prop where
  keeps : Keeps root p.server next.server id subject
  clears : id ∈ listed root p.server subject → ∀ j ids, id ∉ ids →
    (Clears root next j subject ids ↔ Clears root p j subject ids)
  finished : ∀ j, Finished p j → Finished next j

theorem quiet_begin (p : Pool) (o : Operation) (id subject : String) :
    Quiet root p (p.step root (.begin o)) id subject := by
  refine ⟨keeps_refl _ _ _, ?_, ?_⟩
  · intro _ j ids _
    constructor
    · intro h
      rcases get_snoc _ _ _ j h with hold | ⟨_, hnew⟩
      · exact hold
      · exact absurd hnew.symm (fresh_ne_clearing o subject ids)
    · intro h
      exact (List.getElem?_append_left (List.getElem?_eq_some_iff.mp h).1).trans h
  · rintro j ⟨c, hc, hdone⟩
    have hlt : j < p.clients.length := (List.getElem?_eq_some_iff.mp hc).1
    exact ⟨c, (List.getElem?_append_left hlt).trans hc, hdone⟩

theorem quiet_wait (p : Pool) (ms : Nat) (id subject : String) :
    Quiet root p (p.step root (.wait ms)) id subject :=
  ⟨elapse_keeps p.server ms id subject, fun _ _ _ _ => Iff.rfl, fun _ h => h⟩

theorem quiet_advance (p : Pool) (srv : Server) (i : Nat) (c c' : Client) (id subject : String)
    (hi : p.clients[i]? = some c) (h : Calm root p.server c c' srv id subject) :
    Quiet root p ⟨srv, p.clients.set i c'⟩ id subject := by
  refine ⟨h.keeps, ?_, fun j => finished_set p srv i c c' hi h.finishes j⟩
  intro hnamed j ids hids
  exact clears_set p srv i c c' hi subject ids (h.clears ids hids) (h.reads hnamed ids hids) j

/-- A move binds the id, or takes away a set that was read without it, or is quiet. -/
theorem step_cases (p : Pool) (hp : Sound root p) (m : Move) (id subject : String) :
    (∃ i s, m = .advance i ∧ Puts root p i id s) ∨
      (∃ i ids, m = .advance i ∧ Clears root p i subject ids ∧ id ∉ ids) ∨
      ((∀ i s, m = .advance i → ¬ Puts root p i id s) ∧
        Quiet root p (p.step root m) id subject) := by
  cases m with
  | begin o =>
    refine Or.inr (Or.inr ⟨?_, quiet_begin p o id subject⟩)
    intro i s hm
    cases hm
  | wait ms =>
    refine Or.inr (Or.inr ⟨?_, quiet_wait p ms id subject⟩)
    intro i s hm
    cases hm
  | advance i =>
    rcases step_advance p hp i with ⟨hnone, h⟩ | ⟨c, c', srv, hi, hadvances, h⟩
    · refine Or.inr (Or.inr ⟨?_, ?_⟩)
      · rintro j s hm ⟨ttl, hputs⟩
        cases hm
        rw [hnone] at hputs
        cases hputs
      · rw [h]
        exact ⟨keeps_refl _ _ _, fun _ _ _ _ => Iff.rfl, fun _ hj => hj⟩
    · rcases advances_cases p.server srv hp.typed c c' hadvances id subject with
        ⟨s, ttl, rfl⟩ | ⟨ids, rfl, hids⟩ | hcalm
      · exact Or.inl ⟨i, s, rfl, ttl, hi⟩
      · exact Or.inr (Or.inl ⟨i, ids, rfl, hi, hids⟩)
      · refine Or.inr (Or.inr ⟨?_, ?_⟩)
        · rintro j s hm ⟨ttl, hputs⟩
          cases hm
          rw [hi] at hputs
          exact hcalm.puts s ttl (Option.some.inj hputs)
        · rw [h]
          exact quiet_advance p srv i c c' id subject hi hcalm

/-! ## Schedules -/

theorem last_put_snoc (schedule : List Move) (m : Move) (n i : Nat) (id subject : String)
    (h : LastPut root schedule n i id subject)
    (hm : ∀ k s, m = .advance k → ¬ Puts root (Pool.run root schedule) k id s) :
    LastPut root (schedule ++ [m]) n i id subject := by
  have hn : n < schedule.length := (List.getElem?_eq_some_iff.mp h.move).1
  refine ⟨(List.getElem?_append_left hn).trans h.move, ?_, ?_⟩
  · rw [List.take_append_of_le_length (Nat.le_of_lt hn)]
    exact h.puts
  · intro k c s hk hmove
    rcases get_snoc schedule m _ k hmove with hold | ⟨rfl, hnew⟩
    · rw [List.take_append_of_le_length (Nat.le_of_lt (List.getElem?_eq_some_iff.mp hold).1)]
      exact h.last k c s hk hold
    · rw [List.take_append_of_le_length (Nat.le_refl _), List.take_length]
      exact hm c s hnew.symm

theorem last_put_now (schedule : List Move) (i : Nat) (id subject : String)
    (h : Puts root (Pool.run root schedule) i id subject) :
    LastPut root (schedule ++ [.advance i]) schedule.length i id subject := by
  refine ⟨by simp, ?_, ?_⟩
  · rw [List.take_append_of_le_length (Nat.le_refl _), List.take_length]
    exact h
  · intro m k s hm hmove
    have hlt := (List.getElem?_eq_some_iff.mp hmove).1
    rw [List.length_append, List.length_singleton] at hlt
    omega

theorem last_put_unique (schedule : List Move) (n m i k : Nat) (id subject s : String)
    (h : LastPut root schedule n i id subject) (h' : LastPut root schedule m k id s) : n = m := by
  rcases Nat.lt_trichotomy n m with hlt | heq | hgt
  · exact absurd h'.puts (h.last m k s hlt h'.move)
  · exact heq
  · exact absurd h.puts (h'.last n i subject hgt h.move)

/-- What a live binding owes to its last put: it is still covered, and the removals that could
uncover it are those that had read without it; or one of these has been carried out. -/
structure Accounted (root : String) (schedule : List Move) (id subject : String) (n i : Nat) :
    Prop where
  put : LastPut root schedule n i id subject
  fate : (Covered root (Pool.run root schedule).server id subject ∧
      ∀ j ids, id ∉ ids → (Clears root (Pool.run root schedule) j subject ids ↔
        Clears root (Pool.run root (schedule.take n)) j subject ids)) ∨
    (id ∉ listed root (Pool.run root schedule).server subject ∧
      ∃ j ids, id ∉ ids ∧ Clears root (Pool.run root (schedule.take n)) j subject ids ∧
        Finished (Pool.run root schedule) j)

theorem last_step (p : Pool) (i : Nat) (c : Client) (hi : p.clients[i]? = some c)
    (hlast : (c.advance p.server).1.isDone = true) :
    ∃ c', c'.isDone = true ∧ p.step root (.advance i) =
      ⟨(p.server.runAll c.commands).2, p.clients.set i c'⟩ := by
  refine ⟨(c.advance p.server).1, hlast, ?_⟩
  simp only [Pool.step, hi, Client.advance_server]

theorem put_step (p : Pool) (i : Nat) (id subject : String) (ttl : Duration)
    (hi : p.clients[i]? = some (fresh root (.put id subject ttl))) :
    ∃ c, c.isDone = true ∧ p.step root (.advance i) =
      ⟨(p.server.runAll (putCommands root id subject ttl)).2, p.clients.set i c⟩ :=
  last_step p i _ hi rfl

theorem clear_step (p : Pool) (i : Nat) (subject : String) (ids : List String)
    (hi : Clears root p i subject ids) :
    ∃ c, c.isDone = true ∧ p.step root (.advance i) =
      ⟨(p.server.runAll (clearCommands root subject ids)).2, p.clients.set i c⟩ :=
  last_step p i _ hi rfl

theorem accounted_of_put (schedule : List Move) (i : Nat) (id subject s : String)
    (hputs : Puts root (Pool.run root schedule) i id s)
    (hheld : holder? root (Pool.run root (schedule ++ [.advance i])).server id = some subject) :
    Accounted root (schedule ++ [.advance i]) id subject schedule.length i := by
  obtain ⟨ttl, hi⟩ := hputs
  obtain ⟨c, hdone, hstep⟩ := put_step (Pool.run root schedule) i id s ttl hi
  have hs : s = subject := by
    rw [Pool.run_snoc, hstep, put_holder, Option.some.injEq] at hheld
    exact hheld
  subst hs
  refine ⟨last_put_now schedule i id s ⟨ttl, hi⟩, Or.inl ⟨?_, ?_⟩⟩
  · rw [Pool.run_snoc, hstep]
    exact put_covered _ (run_sound schedule).typed id s ttl
  · intro j ids _
    rw [List.take_append_of_le_length (Nat.le_refl _), List.take_length, Pool.run_snoc, hstep]
    exact clears_set _ _ i _ c hi s ids (fresh_ne_clearing _ _ _)
      (ne_clearing_of_done c hdone s ids) j

theorem accounted_of_clear (schedule : List Move) (i : Nat) (ids : List String) (id subject : String)
    (hclears : Clears root (Pool.run root schedule) i subject ids) (hids : id ∉ ids) (n k : Nat)
    (h : Accounted root schedule id subject n k) :
    Accounted root (schedule ++ [.advance i]) id subject n k := by
  obtain ⟨c, hdone, hstep⟩ := clear_step (Pool.run root schedule) i subject ids hclears
  have hlt : i < (Pool.run root schedule).clients.length := (List.getElem?_eq_some_iff.mp hclears).1
  have hn : n < schedule.length := (List.getElem?_eq_some_iff.mp h.put.move).1
  have hput : LastPut root (schedule ++ [.advance i]) n k id subject := by
    apply last_put_snoc schedule _ n k id subject h.put
    rintro j s hm ⟨ttl, hputs⟩
    cases hm
    unfold Clears at hclears
    rw [hclears] at hputs
    exact fresh_ne_clearing _ _ _ (Option.some.inj hputs).symm
  refine ⟨hput, Or.inr ?_⟩
  rw [List.take_append_of_le_length (Nat.le_of_lt hn), Pool.run_snoc, hstep]
  refine ⟨by rw [clear_listed]; exact List.not_mem_nil, ?_⟩
  -- a removal that read without the id, while it was covered, had read before the id was put
  rcases h.fate with ⟨_, hreaders⟩ | ⟨_, j, xs, hxs, hj, hfinished⟩
  · exact ⟨i, ids, hids, (hreaders i ids hids).mp hclears, c, List.getElem?_set_self hlt, hdone⟩
  · exact ⟨j, xs, hxs, hj, finished_set _ _ i _ c hclears (fun _ => hdone) j hfinished⟩

theorem accounted_of_quiet (schedule : List Move) (m : Move) (id subject : String)
    (hputs : ∀ k s, m = .advance k → ¬ Puts root (Pool.run root schedule) k id s)
    (hquiet : Quiet root (Pool.run root schedule) ((Pool.run root schedule).step root m) id subject)
    (hheld : holder? root (Pool.run root schedule).server id = some subject) (n k : Nat)
    (h : Accounted root schedule id subject n k) :
    Accounted root (schedule ++ [m]) id subject n k := by
  have hn : n < schedule.length := (List.getElem?_eq_some_iff.mp h.put.move).1
  refine ⟨last_put_snoc schedule m n k id subject h.put hputs, ?_⟩
  rw [List.take_append_of_le_length (Nat.le_of_lt hn), Pool.run_snoc]
  rcases h.fate with ⟨hcovered, hreaders⟩ | ⟨hunnamed, j, ids, hids, hj, hfinished⟩
  · have hnamed := listed_of_covered _ (run_sound schedule).typed id subject hheld hcovered
    refine Or.inl ⟨hquiet.keeps.covered hcovered, ?_⟩
    intro j ids hids
    exact (hquiet.clears hnamed j ids hids).trans (hreaders j ids hids)
  · exact Or.inr ⟨fun hnamed => hunnamed (hquiet.keeps.named hnamed), j, ids, hids, hj,
      hquiet.finished j hfinished⟩

theorem run_accounted (schedule : List Move) (id subject : String)
    (hheld : holder? root (Pool.run root schedule).server id = some subject) :
    ∃ n i, Accounted root schedule id subject n i := by
  induction schedule using List.reverseRecOn with
  | nil => cases hheld
  | append_singleton schedule m ih =>
    rcases step_cases (Pool.run root schedule) (run_sound schedule) m id subject with
      ⟨i, s, rfl, hputs⟩ | ⟨i, ids, rfl, hclears, hids⟩ | ⟨hputs, hquiet⟩
    · exact ⟨schedule.length, i, accounted_of_put schedule i id subject s hputs hheld⟩
    · have hbefore : holder? root (Pool.run root schedule).server id = some subject := by
        obtain ⟨c, _, hstep⟩ := clear_step (Pool.run root schedule) i subject ids hclears
        rwa [Pool.run_snoc, hstep, clear_holder, if_neg hids] at hheld
      obtain ⟨n, k, h⟩ := ih hbefore
      exact ⟨n, k, accounted_of_clear schedule i ids id subject hclears hids n k h⟩
    · rw [Pool.run_snoc] at hheld
      have hbefore := hquiet.keeps.held hheld
      obtain ⟨n, k, h⟩ := ih hbefore
      exact ⟨n, k, accounted_of_quiet schedule m id subject hputs hquiet hbefore n k h⟩

theorem named_iff (schedule : List Move) (id subject : String)
    (hheld : holder? root (Pool.run root schedule).server id = some subject) :
    id ∈ listed root (Pool.run root schedule).server subject ↔
      ¬ Overtaken root schedule id subject := by
  obtain ⟨n, i, h⟩ := run_accounted schedule id subject hheld
  rcases h.fate with ⟨hcovered, hreaders⟩ | ⟨hunnamed, j, ids, hids, hj, hfinished⟩
  · have hnamed := listed_of_covered _ (run_sound schedule).typed id subject hheld hcovered
    refine iff_of_true hnamed ?_
    rintro ⟨m, k, j, ids, hput, hids, hj, c, hc, hdone⟩
    have hnm := last_put_unique schedule n m i k id subject subject h.put hput
    subst hnm
    have hstill := (hreaders j ids hids).mpr hj
    unfold Clears at hstill
    rw [hc] at hstill
    exact ne_clearing_of_done c hdone subject ids (Option.some.inj hstill)
  · exact iff_of_false hunnamed
      (fun hnot => hnot ⟨n, i, j, ids, h.put, hids, hj, hfinished⟩)

theorem remove_subject_holder (srv : Server) (hsrv : Typed root srv) (id subject : String) :
    holder? root ((removeSubjectScript root subject).run srv).2 id =
      if id ∈ listed root srv subject then none else holder? root srv id := by
  rw [removeSubjectScript, Script.run, run_members srv hsrv]
  exact clear_holder srv subject (listed root srv subject) id

/-- After any schedule a live binding is named in the set of its subject, and a removal of the
subject that runs alone unbinds it, exactly if no removal of the subject has overtaken it. -/
theorem bound_iff_overtaken (schedule : List Move) (id subject : String)
    (hheld : holder? root (Pool.run root schedule).server id = some subject) :
    (id ∈ listed root (Pool.run root schedule).server subject ↔
      ¬ Overtaken root schedule id subject) ∧
    (holder? root ((removeSubjectScript root subject).run (Pool.run root schedule).server).2 id =
      none ↔ ¬ Overtaken root schedule id subject) := by
  have hnamed := named_iff schedule id subject hheld
  refine ⟨hnamed, ?_⟩
  rw [remove_subject_holder _ (run_sound schedule).typed, ← hnamed]
  by_cases h : id ∈ listed root (Pool.run root schedule).server subject
  · simp [h]
  · simp [h, hheld]

/-- A removal reads the empty set of a subject, another client binds an id to that subject, and the
removal goes on. -/
def race : List Move :=
  [.begin (.removeSubject "alice"), .advance 0, .begin (.put "c" "alice" (Duration.ofSecs 60)),
    .advance 1, .advance 0]

/-- A live binding that no set names and that a removal of its subject leaves as it is. -/
theorem binding_escapes :
    holder? "keystamp:binding:" (Pool.run "keystamp:binding:" race).server "c" = some "alice" ∧
      "c" ∉ listed "keystamp:binding:" (Pool.run "keystamp:binding:" race).server "alice" ∧
      holder? "keystamp:binding:" ((removeSubjectScript "keystamp:binding:" "alice").run
        (Pool.run "keystamp:binding:" race).server).2 "c" = some "alice" := by
  decide +kernel

theorem bound_iff_overtaken_race :
    holder? "keystamp:binding:" (Pool.run "keystamp:binding:" race).server "c" = some "alice" ∧
      Overtaken "keystamp:binding:" race "c" "alice" := by
  have hheld : holder? "keystamp:binding:" (Pool.run "keystamp:binding:" race).server "c" =
      some "alice" := by decide +kernel
  have hunnamed : "c" ∉ listed "keystamp:binding:" (Pool.run "keystamp:binding:" race).server
      "alice" := by decide +kernel
  refine ⟨hheld, Classical.byContradiction fun hnot => ?_⟩
  exact hunnamed ((bound_iff_overtaken race "c" "alice" hheld).1.mpr hnot)

end Countersign.SharedBindings
