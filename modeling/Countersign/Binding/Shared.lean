import Countersign.Binding.Server
import Countersign.Binding.Store

/-!
# Bindings on a shared server

Each binding is a text under a key of its own, and for each subject a set names the
ids that were bound to it. A set lives at least as long as the bindings of its ids.
Operations that read before they write take two round trips, so other clients may
come between.
-/

set_option autoImplicit false

namespace Countersign

structure SharedBindings where
  root : String := "keystamp:binding:"
  server : Server := {}
deriving DecidableEq, Repr

namespace SharedBindings

open Server (Command Reply)

def tokenKey (root id : String) : String := root ++ "token:" ++ id

def subjectKey (root subject : String) : String := root ++ "subject:" ++ subject

/-- Whole seconds, rounded up and at least one, counted in 64 bits. -/
def wholeSeconds (ttl : Duration) : UInt64 :=
  max 1 (ttl.secs + if 0 < ttl.subsecNanos then 1 else 0)

def wrongKind : StoreFailure :=
  .unavailable "WRONGTYPE: Operation against a key holding the wrong kind of value"

def unlessWrong {α : Type} (replies : List Reply) (answer : α) : Script (Except StoreFailure α) :=
  .done (if Reply.wrongKind ∈ replies then .error wrongKind else .ok answer)

def putScript (root id subject : String) (ttl : Duration) : Script (Except StoreFailure Unit) :=
  let seconds := wholeSeconds ttl
  let ids := subjectKey root subject
  .send
    [.setFor (tokenKey root id) subject seconds, .addMember ids id, .expireNew ids seconds,
     .expireLater ids seconds]
    fun replies => unlessWrong replies ()

def getScript (root id : String) : Script (Except StoreFailure (Option String)) :=
  .send [.get (tokenKey root id)] fun
    | [.text subject] => .done (.ok subject)
    | _ => .done (.error wrongKind)

/-- Reads a binding, then removes it and its id from the set of its subject. -/
def removeScript (root id : String) : Script (Except StoreFailure Unit) :=
  .send [.get (tokenKey root id)] fun
    | [.text none] => .send [.delete (tokenKey root id)] fun replies => unlessWrong replies ()
    | [.text (some subject)] =>
      .send [.delete (tokenKey root id), .removeMember (subjectKey root subject) id] fun replies =>
        unlessWrong replies ()
    | _ => .done (.error wrongKind)

def total (replies : List Reply) : Nat :=
  replies.foldl (fun n r => match r with | .count k => n + k | _ => n) 0

/-- Reads the ids of a subject, then removes their bindings and the set. -/
def removeSubjectScript (root subject : String) : Script (Except StoreFailure Nat) :=
  .send [.members (subjectKey root subject)] fun
    | [.members ids] =>
      .send (ids.map (fun id => .delete (tokenKey root id)) ++ [.delete (subjectKey root subject)])
        fun replies => unlessWrong replies (total (replies.take ids.length))
    | _ => .done (.error wrongKind)

def carryOut {α : Type} (b : SharedBindings) (script : Script α) : α × SharedBindings :=
  let (answer, server) := script.run b.server
  (answer, { b with server := server })

instance : BindingStore SharedBindings where
  put b id subject ttl := b.carryOut (putScript b.root id subject ttl)
  get b id := b.carryOut (getScript b.root id)
  remove b id := b.carryOut (removeScript b.root id)
  removeSubject b subject := b.carryOut (removeSubjectScript b.root subject)

end SharedBindings

end Countersign
