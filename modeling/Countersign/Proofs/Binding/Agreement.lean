import Countersign.Proofs.Binding.Clients
import Countersign.Proofs.Binding.Mirror

/-!
# One client on both stores

A client makes the same calls to a store in memory and to a shared one, and nothing
that is stored ends meanwhile. The stores answer alike until the set of a subject
that is removed names an id which has been bound to another subject since: the
shared store unbinds and counts it too.
-/

set_option autoImplicit false

namespace Countersign.SharedBindings

def Operation.serve {σ : Type} [BindingStore σ] (s : σ) :
    (o : Operation) → Except StoreFailure o.Answer × σ
  | .put id subject ttl => BindingStore.put s id subject ttl
  | .get id => BindingStore.get s id
  | .remove id => BindingStore.remove s id
  | .removeSubject subject => BindingStore.removeSubject s subject

/-- An operation, and the time that passes before it by the clock of each store. -/
structure Turn where
  operation : Operation
  pause : Duration := Duration.zero
  pauseMillis : Nat := 0
deriving DecidableEq, Repr

structure Stores where
  memory : MemoryBindings := {}
  shared : SharedBindings := {}

namespace Stores

def await (s : Stores) (t : Turn) : Stores where
  memory := s.memory.elapse t.pause
  shared := { s.shared with server := s.shared.server.elapse t.pauseMillis }

def step (s : Stores) (t : Turn) : Stores where
  memory := (t.operation.serve (s.await t).memory).2
  shared := (t.operation.serve (s.await t).shared).2

def run (root : String) (turns : List Turn) : Stores :=
  turns.foldl step { shared := { root := root } }

theorem run_snoc (root : String) (turns : List Turn) (t : Turn) :
    run root (turns ++ [t]) = (run root turns).step t := by
  simp [run, List.foldl_append]

def Agree (s : Stores) (t : Turn) : Prop :=
  (t.operation.serve (s.await t).memory).1 = (t.operation.serve (s.await t).shared).1

/-- Nothing that is stored ends before the operation begins. -/
def Lasts (s : Stores) (t : Turn) : Prop :=
  (∀ b ∈ (s.await t).memory.entries, (s.await t).memory.now < b.expiry) ∧
    ∀ e ∈ (s.await t).shared.server.slots,
      Server.isLive (s.await t).shared.server.now e.2 = true

/-- The end of a new binding lies beyond what the clock of the store in memory counts. -/
def Endless (s : Stores) (t : Turn) : Prop :=
  ∃ id subject ttl, t.operation = .put id subject ttl ∧
    MemoryBindings.horizon ≤ (s.await t).memory.now + ttl.nanos

instance : (o : Operation) → DecidableEq o.Answer
  | .put _ _ _ => inferInstanceAs (DecidableEq Unit)
  | .get _ => inferInstanceAs (DecidableEq (Option String))
  | .remove _ => inferInstanceAs (DecidableEq Unit)
  | .removeSubject _ => inferInstanceAs (DecidableEq Nat)

instance (s : Stores) (t : Turn) : Decidable (s.Agree t) :=
  inferInstanceAs (Decidable (_ = _))

instance (s : Stores) (t : Turn) : Decidable (s.Lasts t) :=
  inferInstanceAs (Decidable (_ ∧ _))

end Stores

open Stores (run)

def Throughout (turns : List Turn) (P : List Turn → Turn → Prop) : Prop :=
  ∀ before t after, turns = before ++ t :: after → P before t

variable (root : String)

/-- An id was bound to another subject, and since then its old subject has neither been removed nor
got it back. -/
inductive LeftBehind (id subject : String) : List Turn → Prop where
  | moved (turns : List Turn) (t : Turn) (other : String) (ttl : Duration)
      (hbound : (run root turns).memory.bound? id = some subject)
      (hput : t.operation = .put id other ttl) (hother : other ≠ subject) :
      LeftBehind id subject (turns ++ [t])
  | kept (turns : List Turn) (t : Turn) (h : LeftBehind id subject turns)
      (hremoval : t.operation ≠ .removeSubject subject)
      (hput : ∀ ttl, t.operation ≠ .put id subject ttl) : LeftBehind id subject (turns ++ [t])

/-- A subject is removed while an id that was left behind in it is bound, to another one. -/
def Misdirected (turns : List Turn) (t : Turn) : Prop :=
  ∃ subject id other, t.operation = .removeSubject subject ∧ LeftBehind root id subject turns ∧
    (run root turns).memory.bound? id = some other

def Unexpired (turns : List Turn) : Prop :=
  Throughout turns fun before t => (run root before).Lasts t

theorem throughout_nil (P : List Turn → Turn → Prop) : Throughout [] P := by
  intro before t after h
  exact absurd h.symm (List.append_ne_nil_of_right_ne_nil before (List.cons_ne_nil t after))

theorem throughout_snoc (turns : List Turn) (t : Turn) (P : List Turn → Turn → Prop) :
    Throughout (turns ++ [t]) P ↔ Throughout turns P ∧ P turns t := by
  constructor
  · intro h
    refine ⟨fun before u after heq => h before u (after ++ [t]) ?_, h turns t [] rfl⟩
    simp [heq]
  · rintro ⟨h, hlast⟩ before u after heq
    rcases List.eq_nil_or_concat after with rfl | ⟨rest, x, rfl⟩
    · obtain ⟨rfl, hsame⟩ := List.append_inj' heq rfl
      rwa [← List.singleton_inj.mp hsame]
    · have hinit : turns = before ++ u :: rest :=
        (List.append_inj' (heq.trans (by simp : _ = (before ++ u :: rest) ++ [x])) rfl).1
      exact h before u rest hinit

theorem throughout_iff_take (turns : List Turn) (P : List Turn → Turn → Prop) :
    Throughout turns P ↔ ∀ n : Fin turns.length, P (turns.take n) turns[n] := by
  constructor
  · intro h n
    apply h _ _ (turns.drop (n + 1))
    rw [Fin.getElem_fin, List.getElem_cons_drop, List.take_append_drop]
  · rintro h before t after rfl
    have hn : before.length < (before ++ t :: after).length := by simp
    simpa using h ⟨before.length, hn⟩

instance (turns : List Turn) (P : List Turn → Turn → Prop) [∀ before t, Decidable (P before t)] :
    Decidable (Throughout turns P) :=
  decidable_of_iff _ (throughout_iff_take turns P).symm

instance (turns : List Turn) : Decidable (Unexpired root turns) :=
  inferInstanceAs (Decidable (Throughout turns fun before t => (run root before).Lasts t))

variable {root}

theorem left_behind_snoc (turns : List Turn) (t : Turn) (id subject : String) :
    LeftBehind root id subject (turns ++ [t]) ↔
      (∃ other ttl, t.operation = .put id other ttl ∧ other ≠ subject ∧
        (run root turns).memory.bound? id = some subject) ∨
      (LeftBehind root id subject turns ∧ t.operation ≠ .removeSubject subject ∧
        ∀ ttl, t.operation ≠ .put id subject ttl) := by
  constructor
  · generalize hall : turns ++ [t] = all
    intro h
    cases h with
    | moved earlier u other ttl hbound hput hother =>
      obtain ⟨rfl, hsame⟩ := List.append_inj' hall rfl
      obtain rfl := List.singleton_inj.mp hsame
      exact Or.inl ⟨other, ttl, hput, hother, hbound⟩
    | kept earlier u h hremoval hput =>
      obtain ⟨rfl, hsame⟩ := List.append_inj' hall rfl
      obtain rfl := List.singleton_inj.mp hsame
      exact Or.inr ⟨h, hremoval, hput⟩
  · rintro (⟨other, ttl, hput, hother, hbound⟩ | ⟨h, hremoval, hput⟩)
    · exact .moved turns t other ttl hbound hput hother
    · exact .kept turns t h hremoval hput

/-! ## One turn -/

section Shared

variable (b : SharedBindings) (hb : Typed b.root b.server)
include hb

theorem serve_put (id subject : String) (ttl : Duration) :
    (Operation.put id subject ttl).serve b = (.ok (), { b with
      server := (b.server.runAll (putCommands b.root id subject ttl)).2 }) := by
  have hanswer := put_answer b.server hb id subject ttl
  simp only [Operation.serve, BindingStore.put, carryOut, hanswer]
  rfl

theorem serve_get (id : String) :
    (Operation.get id).serve b = (.ok (holder? b.root b.server id), b) := by
  have hanswer := get_answer b.server hb id
  simp only [Operation.serve, BindingStore.get, carryOut, hanswer]
  rfl

theorem serve_remove (id : String) :
    (Operation.remove id).serve b = (.ok (), { b with
      server := (b.server.runAll
        (unbindCommands b.root id (holder? b.root b.server id))).2 }) := by
  have hanswer := remove_answer b.server hb id
  simp only [Operation.serve, BindingStore.remove, carryOut, hanswer]
  rfl

theorem serve_remove_subject (subject : String) (hnamed : (listed b.root b.server subject).Nodup) :
    (Operation.removeSubject subject).serve b =
      (.ok ((listed b.root b.server subject).countP fun id =>
        (holder? b.root b.server id).isSome), { b with
      server := (b.server.runAll
        (clearCommands b.root subject (listed b.root b.server subject))).2 }) := by
  have hanswer := remove_subject_answer b.server hb subject hnamed
  simp only [Operation.serve, BindingStore.removeSubject, carryOut, hanswer]
  rfl

end Shared

theorem serve_put_memory (m : MemoryBindings) (id subject : String) (ttl : Duration)
    (h : m.now + ttl.nanos < MemoryBindings.horizon) :
    (Operation.put id subject ttl).serve m =
      (.ok (), m.place ⟨id, subject, m.now + ttl.nanos⟩) := by
  simp only [Operation.serve, BindingStore.put, MemoryBindings.insert?, if_pos h]
  rfl

theorem serve_put_endless (m : MemoryBindings) (id subject : String) (ttl : Duration)
    (h : ¬ m.now + ttl.nanos < MemoryBindings.horizon) :
    (Operation.put id subject ttl).serve m = (.error .clockExhausted, m) := by
  simp only [Operation.serve, BindingStore.put, MemoryBindings.insert?, if_neg h]
  rfl

def Tracked (root : String) (turns : List Turn) : Prop :=
  Mirrors (run root turns).shared.root (run root turns).memory (run root turns).shared.server
    fun id s => LeftBehind root id s turns

/-- What it takes that a turn is answered alike, and that then the stores mirror each other again. -/
structure Decided (root : String) (turns : List Turn) (t : Turn) : Prop where
  agree : (run root turns).Agree t ↔
    ¬ Misdirected root turns t ∧ ¬ (run root turns).Endless t
  tracked : (run root turns).Agree t → Tracked root (turns ++ [t])

theorem await_mirrors (turns : List Turn) (t : Turn) (h : Tracked root turns)
    (hlasts : (run root turns).Lasts t) :
    Mirrors ((run root turns).await t).shared.root ((run root turns).await t).memory
      ((run root turns).await t).shared.server fun id s => LeftBehind root id s turns :=
  mirrors_of_slots h _ _ rfl (Server.slot_elapse_of_live _ _ hlasts.2)

theorem await_live (s : Stores) (t : Turn) (hlasts : s.Lasts t) :
    (s.await t).memory.live = (s.await t).memory.entries :=
  List.filter_eq_self.mpr fun b hb => decide_eq_true (hlasts.1 b hb)

theorem not_misdirected (turns : List Turn) (t : Turn)
    (h : ∀ subject, t.operation ≠ .removeSubject subject) : ¬ Misdirected root turns t := by
  rintro ⟨subject, _, _, hremoval, _⟩
  exact h subject hremoval

theorem not_endless (s : Stores) (t : Turn)
    (h : ∀ id subject ttl, t.operation ≠ .put id subject ttl) : ¬ s.Endless t := by
  rintro ⟨id, subject, ttl, hput, _⟩
  exact h id subject ttl hput

section Turns

variable (turns : List Turn) (pause : Duration) (ms : Nat) (h : Tracked root turns)
include h

theorem get_turn (id : String) (hlasts : (run root turns).Lasts ⟨.get id, pause, ms⟩) :
    Decided root turns ⟨.get id, pause, ms⟩ := by
  have hm := await_mirrors turns _ h hlasts
  have hlive := await_live (run root turns) _ hlasts
  have hserve := serve_get _ hm.typed id
  have hagree : (run root turns).Agree ⟨.get id, pause, ms⟩ := by
    rw [Stores.Agree, hserve, hm.held, ← MemoryBindings.get_of_live _ id hlive]
    rfl
  refine ⟨iff_of_true hagree ⟨?_, ?_⟩, fun _ => ?_⟩
  · exact not_misdirected turns _ fun subject => by simp
  · exact not_endless _ _ fun x s ttl => by simp
  · rw [Tracked, Stores.run_snoc, Stores.step, hserve]
    refine mirrors_congr hm _ ?_
    intro x s
    rw [left_behind_snoc]
    simp

theorem remove_turn (id : String) (hlasts : (run root turns).Lasts ⟨.remove id, pause, ms⟩) :
    Decided root turns ⟨.remove id, pause, ms⟩ := by
  have hm := await_mirrors turns _ h hlasts
  have hserve := serve_remove _ hm.typed id
  have hagree : (run root turns).Agree ⟨.remove id, pause, ms⟩ := by
    rw [Stores.Agree, hserve]
    rfl
  refine ⟨iff_of_true hagree ⟨?_, ?_⟩, fun _ => ?_⟩
  · exact not_misdirected turns _ fun subject => by simp
  · exact not_endless _ _ fun x s ttl => by simp
  · rw [Tracked, Stores.run_snoc, Stores.step, hserve]
    refine mirrors_congr (unbind_mirrors hm id) _ ?_
    intro x s
    rw [left_behind_snoc]
    simp

theorem put_turn (id subject : String) (ttl : Duration)
    (hlasts : (run root turns).Lasts ⟨.put id subject ttl, pause, ms⟩) :
    Decided root turns ⟨.put id subject ttl, pause, ms⟩ := by
  let t : Turn := ⟨.put id subject ttl, pause, ms⟩
  have hm := await_mirrors turns t h hlasts
  have hserve := serve_put ((run root turns).await t).shared hm.typed id subject ttl
  -- the server does not count in the clock of the store in memory, and binds in any case
  by_cases hfits : ((run root turns).await t).memory.now + ttl.nanos < MemoryBindings.horizon
  · have hmemory := serve_put_memory _ id subject ttl hfits
    have hagree : (run root turns).Agree t := by rw [Stores.Agree, hserve, hmemory]
    refine ⟨iff_of_true hagree ⟨?_, ?_⟩, fun _ => ?_⟩
    · exact not_misdirected turns t fun s => by simp [t]
    · rintro ⟨x, s, d, hput, hend⟩
      cases hput
      exact Nat.not_lt_of_le hend hfits
    · rw [Tracked, Stores.run_snoc, Stores.step, hserve, hmemory]
      refine mirrors_congr (put_mirrors hm ⟨id, subject, _⟩ ttl) _ ?_
      intro x s
      rw [left_behind_snoc]
      have hbound : ((run root turns).await t).memory.bound? x = (run root turns).memory.bound? x :=
        rfl
      simp [hbound, @eq_comm _ x id, @eq_comm _ s subject]
  · have hmemory := serve_put_endless _ id subject ttl hfits
    have hdiffer : ¬ (run root turns).Agree t := by
      rw [Stores.Agree, hserve, hmemory]
      intro heq
      cases heq
    refine ⟨iff_of_false hdiffer ?_, fun hagree => absurd hagree hdiffer⟩
    rintro ⟨_, hend⟩
    exact hend ⟨id, subject, ttl, rfl, Nat.le_of_not_lt hfits⟩

theorem clear_turn (subject : String)
    (hlasts : (run root turns).Lasts ⟨.removeSubject subject, pause, ms⟩) :
    Decided root turns ⟨.removeSubject subject, pause, ms⟩ := by
  let t : Turn := ⟨.removeSubject subject, pause, ms⟩
  have hm := await_mirrors turns t h hlasts
  have hlive := await_live (run root turns) t hlasts
  have hserve := serve_remove_subject _ hm.typed subject (hm.nodup subject)
  have hcount : (run root turns).Agree t ↔
      ∀ id other, LeftBehind root id subject turns →
        (run root turns).memory.bound? id ≠ some other := by
    rw [Stores.Agree, hserve]
    exact ⟨fun heq => (count_eq_iff hm subject hlive).mp (Except.ok.inj heq),
      fun hnone => congrArg Except.ok ((count_eq_iff hm subject hlive).mpr hnone)⟩
  have hdirected : Misdirected root turns t ↔ ∃ id other, LeftBehind root id subject turns ∧
      (run root turns).memory.bound? id = some other := by
    constructor
    · rintro ⟨s, id, other, hremoval, hleft, hbound⟩
      cases hremoval
      exact ⟨id, other, hleft, hbound⟩
    · rintro ⟨id, other, hleft, hbound⟩
      exact ⟨subject, id, other, rfl, hleft, hbound⟩
  constructor
  · have hends := not_endless (run root turns) t fun x s ttl => by simp [t]
    rw [hcount, hdirected]
    constructor
    · intro hnone
      exact ⟨fun ⟨id, other, hleft, hbound⟩ => hnone id other hleft hbound, hends⟩
    · intro hgood id other hleft hbound
      exact hgood.1 ⟨id, other, hleft, hbound⟩
  · intro hagree
    rw [Tracked, Stores.run_snoc, Stores.step, hserve]
    refine mirrors_congr (clear_mirrors hm subject (hcount.mp hagree)) _ ?_
    intro x s
    rw [left_behind_snoc]
    simp [@eq_comm _ s subject]

end Turns

theorem turn_decided (turns : List Turn) (t : Turn) (h : Tracked root turns)
    (hlasts : (run root turns).Lasts t) : Decided root turns t := by
  obtain ⟨o, pause, ms⟩ := t
  cases o with
  | put id subject ttl => exact put_turn turns pause ms h id subject ttl hlasts
  | get id => exact get_turn turns pause ms h id hlasts
  | remove id => exact remove_turn turns pause ms h id hlasts
  | removeSubject subject => exact clear_turn turns pause ms h subject hlasts

/-! ## A whole run -/

theorem nobody_left (id subject : String) : ¬ LeftBehind root id subject [] := by
  generalize hall : ([] : List Turn) = all
  intro h
  cases h with
  | moved turns t => exact absurd hall.symm (by simp)
  | kept turns t => exact absurd hall.symm (by simp)

theorem run_tracked (turns : List Turn) (h : Unexpired root turns)
    (hagree : Throughout turns fun before t => (run root before).Agree t) : Tracked root turns := by
  induction turns using List.reverseRecOn with
  | nil =>
    refine mirrors_congr empty_mirrors _ ?_
    intro id s
    exact iff_of_false (nobody_left id s) not_false
  | append_singleton turns t ih =>
    have hlasts := (throughout_snoc turns t _).mp h
    have hagrees := (throughout_snoc turns t _).mp hagree
    have hbefore := ih hlasts.1 hagrees.1
    exact (turn_decided turns t hbefore hlasts.2).tracked hagrees.2

/-- Both stores give the same answers throughout a run exactly if no removal of a subject meets an id
that was left behind in it and is bound, and if the clock of the store in memory can count the ends
of all bindings. -/
theorem agree_iff (root : String) (turns : List Turn) (h : Unexpired root turns) :
    (Throughout turns fun before t => (run root before).Agree t) ↔
      Throughout turns fun before t =>
        ¬ Misdirected root before t ∧ ¬ (run root before).Endless t := by
  induction turns using List.reverseRecOn with
  | nil => exact iff_of_true (throughout_nil _) (throughout_nil _)
  | append_singleton turns t ih =>
    have hlasts := (throughout_snoc turns t _).mp h
    -- the stores are only known to mirror each other as long as all answers have been alike
    rw [throughout_snoc, throughout_snoc, ← ih hlasts.1]
    constructor
    · rintro ⟨hearlier, hlast⟩
      have hbefore := run_tracked turns hlasts.1 hearlier
      exact ⟨hearlier, (turn_decided turns t hbefore hlasts.2).agree.mp hlast⟩
    · rintro ⟨hearlier, hlast⟩
      have hbefore := run_tracked turns hlasts.1 hearlier
      exact ⟨hearlier, (turn_decided turns t hbefore hlasts.2).agree.mpr hlast⟩

/-- An id is bound to one subject and then to another, and the first subject is removed. -/
def rebound : List Turn :=
  [{ operation := .put "x" "alice" (Duration.ofSecs 60) },
    { operation := .put "x" "bob" (Duration.ofSecs 60) },
    { operation := .removeSubject "alice" },
    { operation := .get "x" }]

/-- The shared store unbinds the id of the second subject, and tells so. -/
theorem rebound_unbound :
    Unexpired "keystamp:binding:" rebound ∧
      (¬ Throughout rebound fun before t => (run "keystamp:binding:" before).Agree t) ∧
      ((Operation.removeSubject "alice").serve
        (run "keystamp:binding:" (rebound.take 2)).memory).1 = .ok (0 : Nat) ∧
      ((Operation.removeSubject "alice").serve
        (run "keystamp:binding:" (rebound.take 2)).shared).1 = .ok (1 : Nat) ∧
      ((Operation.get "x").serve
        (run "keystamp:binding:" (rebound.take 3)).memory).1 = .ok (some "bob") ∧
      ((Operation.get "x").serve
        (run "keystamp:binding:" (rebound.take 3)).shared).1 = .ok none := by
  decide +kernel

def settled : List Turn :=
  [{ operation := .put "x" "alice" (Duration.ofSecs 60) },
    { operation := .put "x" "bob" (Duration.ofSecs 60) },
    { operation := .removeSubject "bob" },
    { operation := .removeSubject "alice" },
    { operation := .get "x" }]

theorem agree_iff_settled : Unexpired "keystamp:binding:" settled ∧
    Throughout settled fun before t => ¬ Misdirected "keystamp:binding:" before t ∧
      ¬ (run "keystamp:binding:" before).Endless t := by
  have h : Unexpired "keystamp:binding:" settled := by decide +kernel
  exact ⟨h, (agree_iff "keystamp:binding:" settled h).mp (by decide +kernel)⟩

end Countersign.SharedBindings
