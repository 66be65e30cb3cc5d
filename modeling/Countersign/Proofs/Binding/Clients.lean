import Countersign.Proofs.Binding.Kept
import Mathlib.Data.List.Induction

/-!
# Clients of one server

Any number of clients work on one server at once. Each carries out one operation,
round trip by round trip, and a schedule says whose round trip comes next, when a
client begins and how much time passes. Between two round trips of a client
anything may happen.
-/

set_option autoImplicit false

namespace Countersign.SharedBindings

open Server (Command)

inductive Operation where
  | put (id subject : String) (ttl : Duration)
  | get (id : String)
  | remove (id : String)
  | removeSubject (subject : String)
deriving DecidableEq, Repr

def Operation.Answer : Operation → Type
  | .put _ _ _ => Unit
  | .get _ => Option String
  | .remove _ => Unit
  | .removeSubject _ => Nat

def Operation.script (root : String) : (o : Operation) → Script (Except StoreFailure o.Answer)
  | .put id subject ttl => putScript root id subject ttl
  | .get id => getScript root id
  | .remove id => removeScript root id
  | .removeSubject subject => removeSubjectScript root subject

structure Client where
  operation : Operation
  script : Script (Except StoreFailure operation.Answer)

namespace Client

def isDone : Client → Bool
  | ⟨_, .done _⟩ => true
  | ⟨_, .send _ _⟩ => false

def commands : Client → List Command
  | ⟨_, .done _⟩ => []
  | ⟨_, .send cs _⟩ => cs

def advance (srv : Server) : Client → Client × Server
  | ⟨o, .done answer⟩ => (⟨o, .done answer⟩, srv)
  | ⟨o, .send cs next⟩ => (⟨o, next (srv.runAll cs).1⟩, (srv.runAll cs).2)

theorem advance_server (srv : Server) (c : Client) :
    (c.advance srv).2 = (srv.runAll c.commands).2 := by
  obtain ⟨o, script⟩ := c
  cases script <;> rfl

end Client

structure Pool where
  server : Server := {}
  clients : List Client := []

inductive Move where
  | begin (o : Operation)
  | advance (client : Nat)
  | wait (ms : Nat)
deriving DecidableEq, Repr

variable (root : String)

def fresh (o : Operation) : Client := ⟨o, o.script root⟩

def unbinding (id : String) (held : Option String) : Client where
  operation := .remove id
  script := .send (unbindCommands root id held) fun replies => unlessWrong replies ()

def clearing (subject : String) (ids : List String) : Client where
  operation := .removeSubject subject
  script := .send (clearCommands root subject ids) fun replies =>
    unlessWrong replies (total (replies.take ids.length))

namespace Pool

def step (p : Pool) : Move → Pool
  | .begin o => { p with clients := p.clients ++ [fresh root o] }
  | .advance i =>
    match p.clients[i]? with
    | none => p
    | some c => ⟨(c.advance p.server).2, p.clients.set i (c.advance p.server).1⟩
  | .wait ms => { p with server := p.server.elapse ms }

def run (schedule : List Move) : Pool := schedule.foldl (step root) {}

theorem run_snoc (schedule : List Move) (m : Move) :
    run root (schedule ++ [m]) = step root (run root schedule) m := by
  simp [run, List.foldl_append]

end Pool

inductive Known : Client → Prop where
  | fresh (o : Operation) : Known (fresh root o)
  | unbinding (id : String) (held : Option String) : Known (unbinding root id held)
  | clearing (subject : String) (ids : List String) : Known (clearing root subject ids)
  | done (o : Operation) (answer : Except StoreFailure o.Answer) : Known ⟨o, .done answer⟩

inductive Advances (srv : Server) : Client → Client → Server → Prop where
  | put (id subject : String) (ttl : Duration) (answer : Except StoreFailure Unit) :
    Advances srv (fresh root (.put id subject ttl)) ⟨.put id subject ttl, .done answer⟩
      (srv.runAll (putCommands root id subject ttl)).2
  | get (id : String) (answer : Except StoreFailure (Option String)) :
    Advances srv (fresh root (.get id)) ⟨.get id, .done answer⟩ srv
  | look (id : String) :
    Advances srv (fresh root (.remove id)) (unbinding root id (holder? root srv id)) srv
  | unbind (id : String) (held : Option String) (answer : Except StoreFailure Unit) :
    Advances srv (unbinding root id held) ⟨.remove id, .done answer⟩
      (srv.runAll (unbindCommands root id held)).2
  | read (subject : String) :
    Advances srv (fresh root (.removeSubject subject))
      (clearing root subject (listed root srv subject)) srv
  | clear (subject : String) (ids : List String) (answer : Except StoreFailure Nat) :
    Advances srv (clearing root subject ids) ⟨.removeSubject subject, .done answer⟩
      (srv.runAll (clearCommands root subject ids)).2
  | rest (o : Operation) (answer : Except StoreFailure o.Answer) :
    Advances srv ⟨o, .done answer⟩ ⟨o, .done answer⟩ srv

variable {root}

theorem advances (srv : Server) (hsrv : Typed root srv) (c : Client) (hc : Known root c) :
    Advances root srv c (c.advance srv).1 (c.advance srv).2 := by
  cases hc with
  | unbinding id held => exact .unbind id held _
  | clearing subject ids => exact .clear subject ids _
  | done o answer => exact .rest o answer
  | fresh o =>
    cases o with
    | put id subject ttl => exact .put id subject ttl _
    | get id =>
      simp only [fresh, Operation.script, getScript, Client.advance, run_get srv hsrv]
      exact .get id _
    | remove id =>
      have hlook : Advances root srv (fresh root (.remove id)) _ srv := .look id
      cases hheld : holder? root srv id with
      | none =>
        rw [hheld] at hlook
        simp only [fresh, Operation.script, removeScript, Client.advance, run_get srv hsrv, hheld]
        exact hlook
      | some subject =>
        rw [hheld] at hlook
        simp only [fresh, Operation.script, removeScript, Client.advance, run_get srv hsrv, hheld]
        exact hlook
    | removeSubject subject =>
      simp only [fresh, Operation.script, removeSubjectScript, Client.advance, run_members srv hsrv]
      exact .read subject

theorem advances_known (srv srv' : Server) (c c' : Client) (h : Advances root srv c c' srv') :
    Known root c' := by
  cases h with
  | look id => exact .unbinding id _
  | read subject => exact .clearing subject _
  | put => exact .done _ _
  | get => exact .done _ _
  | unbind => exact .done _ _
  | clear => exact .done _ _
  | rest o answer => exact .done o answer

theorem advances_typed (srv srv' : Server) (hsrv : Typed root srv) (c c' : Client)
    (h : Advances root srv c c' srv') : Typed root srv' := by
  cases h with
  | put id subject ttl answer => exact put_typed srv hsrv id subject ttl
  | unbind id held answer => exact unbind_typed srv hsrv id held
  | clear subject ids answer => exact clear_typed srv hsrv subject ids
  | get => exact hsrv
  | look => exact hsrv
  | read => exact hsrv
  | rest => exact hsrv

/-- A server with nothing of a wrong kind, and clients each at a stage of its operation. -/
structure Sound (root : String) (p : Pool) : Prop where
  typed : Typed root p.server
  known : ∀ (i : Nat) (c : Client), p.clients[i]? = some c → Known root c

theorem get_snoc {α : Type} (xs : List α) (x v : α) (i : Nat) (h : (xs ++ [x])[i]? = some v) :
    xs[i]? = some v ∨ (i = xs.length ∧ v = x) := by
  have hi := (List.getElem?_eq_some_iff.mp h).1
  rw [List.length_append, List.length_singleton] at hi
  rcases Nat.lt_or_ge i xs.length with hlt | hge
  · rw [List.getElem?_append_left hlt] at h
    exact Or.inl h
  · have hlast : i = xs.length := by omega
    rw [hlast, List.getElem?_concat_length] at h
    exact Or.inr ⟨hlast, (Option.some.inj h).symm⟩

theorem step_advance (p : Pool) (hp : Sound root p) (i : Nat) :
    (p.clients[i]? = none ∧ p.step root (.advance i) = p) ∨
      ∃ c c' srv', p.clients[i]? = some c ∧ Advances root p.server c c' srv' ∧
        p.step root (.advance i) = ⟨srv', p.clients.set i c'⟩ := by
  cases hi : p.clients[i]? with
  | none => exact Or.inl ⟨rfl, by simp [Pool.step, hi]⟩
  | some c =>
    have hadvances := advances p.server hp.typed c (hp.known i c hi)
    exact Or.inr ⟨c, _, _, rfl, hadvances, by simp [Pool.step, hi]⟩

theorem step_sound (p : Pool) (hp : Sound root p) (m : Move) : Sound root (p.step root m) := by
  cases m with
  | begin o =>
    refine ⟨hp.typed, ?_⟩
    intro i c hi
    rcases get_snoc _ _ c i hi with hold | ⟨_, rfl⟩
    · exact hp.known i c hold
    · exact .fresh o
  | wait ms => exact ⟨elapse_typed p.server hp.typed ms, hp.known⟩
  | advance i =>
    rcases step_advance p hp i with ⟨_, h⟩ | ⟨c, c', srv', hi, hadvances, h⟩
    · rwa [h]
    · rw [h]
      refine ⟨advances_typed p.server srv' hp.typed c c' hadvances, ?_⟩
      intro j d hj
      rw [List.getElem?_set] at hj
      split at hj
      · split at hj
        · cases hj
          exact advances_known p.server srv' c c' hadvances
        · cases hj
      · exact hp.known j d hj

theorem run_sound (schedule : List Move) : Sound root (Pool.run root schedule) := by
  induction schedule using List.reverseRecOn with
  | nil =>
    refine ⟨⟨?_, ?_⟩, ?_⟩
    · intro id x h
      cases h
    · intro s x h
      cases h
    · intro i c h
      cases h
  | append_singleton schedule m ih =>
    rw [Pool.run_snoc]
    exact step_sound _ ih m

end Countersign.SharedBindings
