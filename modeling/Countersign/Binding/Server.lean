import Countersign.Bytes

/-!
# A key/value server

Keys hold texts or sets of texts, each with or without an instant at which it
vanishes. Time is counted in milliseconds. Commands are carried out one at a time,
or several in a row without another client's in between; a command that meets a
value of the wrong kind changes nothing.
-/

set_option autoImplicit false

namespace Countersign

namespace Server

inductive Value where
  | text (s : String)
  | set (members : List String)
deriving DecidableEq, Repr

structure Slot where
  value : Value
  deadline : Option Nat := none
deriving DecidableEq, Repr

inductive Command where
  | get (key : String)
  | setFor (key text : String) (seconds : UInt64)
  | addMember (key member : String)
  | removeMember (key member : String)
  | members (key : String)
  | delete (key : String)
  | expireNew (key : String) (seconds : UInt64)
  | expireLater (key : String) (seconds : UInt64)
deriving DecidableEq, Repr

inductive Reply where
  | done
  | text (s : Option String)
  | members (xs : List String)
  | count (n : Nat)
  | wrongKind
deriving DecidableEq, Repr

end Server

structure Server where
  now : Nat := 0
  slots : List (String × Server.Slot) := []
deriving DecidableEq, Repr

namespace Server

def isLive (now : Nat) (x : Slot) : Bool :=
  match x.deadline with
  | none => true
  | some t => now < t

def slot? (s : Server) (key : String) : Option Slot := (s.slots.lookup key).filter (isLive s.now)

def erase (s : Server) (key : String) : Server :=
  { s with slots := s.slots.filter fun e => e.1 ≠ key }

def place (s : Server) (key : String) (x : Slot) : Server :=
  { s with slots := (key, x) :: (s.erase key).slots }

def deadlineAfter (s : Server) (seconds : UInt64) : Nat := s.now + 1000 * seconds.toNat

def addMember (s : Server) (key member : String) : Reply × Server :=
  match s.slot? key with
  | none => (.count 1, s.place key ⟨.set [member], none⟩)
  | some ⟨.text _, _⟩ => (.wrongKind, s)
  | some ⟨.set xs, t⟩ =>
    if member ∈ xs then (.count 0, s) else (.count 1, s.place key ⟨.set (xs ++ [member]), t⟩)

def removeMember (s : Server) (key member : String) : Reply × Server :=
  match s.slot? key with
  | none => (.count 0, s)
  | some ⟨.text _, _⟩ => (.wrongKind, s)
  | some ⟨.set xs, t⟩ =>
    if member ∈ xs then
      match xs.filter (· ≠ member) with
      | [] => (.count 1, s.erase key)
      | rest => (.count 1, s.place key ⟨.set rest, t⟩)
    else (.count 0, s)

def expire (s : Server) (key : String) (deadline : Nat) (accepts : Option Nat → Bool) : Reply × Server :=
  match s.slot? key with
  | none => (.count 0, s)
  | some ⟨value, t⟩ =>
    if accepts t then (.count 1, s.place key ⟨value, some deadline⟩) else (.count 0, s)

def run (s : Server) : Command → Reply × Server
  | .get key =>
    match s.slot? key with
    | none => (.text none, s)
    | some ⟨.text x, _⟩ => (.text (some x), s)
    | some ⟨.set _, _⟩ => (.wrongKind, s)
  | .setFor key text seconds => (.done, s.place key ⟨.text text, some (s.deadlineAfter seconds)⟩)
  | .addMember key member => s.addMember key member
  | .removeMember key member => s.removeMember key member
  | .members key =>
    match s.slot? key with
    | none => (.members [], s)
    | some ⟨.set xs, _⟩ => (.members xs, s)
    | some ⟨.text _, _⟩ => (.wrongKind, s)
  | .delete key => (.count (if (s.slot? key).isSome then 1 else 0), s.erase key)
  | .expireNew key seconds => s.expire key (s.deadlineAfter seconds) Option.isNone
  | .expireLater key seconds =>
    let deadline := s.deadlineAfter seconds
    s.expire key deadline fun t => t.any (· < deadline)

def runAll (s : Server) : List Command → List Reply × Server
  | [] => ([], s)
  | c :: r =>
    let (reply, s) := s.run c
    let (replies, s) := s.runAll r
    (reply :: replies, s)

def elapse (s : Server) (ms : Nat) : Server := { s with now := s.now + ms }

end Server

/-- What a client does: it sends commands that are carried out in a row, looks at the replies, and
goes on, until it has an answer. -/
inductive Script (α : Type) where
  | done (answer : α)
  | send (commands : List Server.Command) (next : List Server.Reply → Script α)

namespace Script

def run {α : Type} : Script α → Server → α × Server
  | done a, s => (a, s)
  | send commands next, s =>
    let (replies, s) := s.runAll commands
    (next replies).run s

end Script

end Countersign
