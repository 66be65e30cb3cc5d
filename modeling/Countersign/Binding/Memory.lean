import Countersign.Binding.Store

/-!
# Bindings in memory

Bindings with the instants at which they end, on a clock of their own that counts
nanoseconds. Binding an id again replaces its subject and its end; a binding whose
end has come is as good as absent. The clock counts up to 2^63 seconds.
-/

set_option autoImplicit false

namespace Countersign

structure Binding where
  id : String
  subject : String
  expiry : Nat
deriving DecidableEq, Repr

structure MemoryBindings where
  now : Nat := 0
  entries : List Binding := []
deriving DecidableEq, Repr

namespace MemoryBindings

/-- The first instant that the clock cannot count. -/
def horizon : Nat := 9223372036854775808000000000

def live (m : MemoryBindings) : List Binding := m.entries.filter fun b => m.now < b.expiry

def get? (m : MemoryBindings) (id : String) : Option String :=
  (m.live.find? fun b => b.id == id).map Binding.subject

def erase (m : MemoryBindings) (id : String) : MemoryBindings :=
  { m with entries := m.entries.filter fun b => b.id ≠ id }

def insert? (m : MemoryBindings) (id subject : String) (ttl : Duration) : Option MemoryBindings :=
  if m.now + ttl.nanos < horizon then
    some { m with entries := ⟨id, subject, m.now + ttl.nanos⟩ :: (m.erase id).entries }
  else none

def count (m : MemoryBindings) (subject : String) : Nat := m.live.countP fun b => b.subject == subject

def eraseSubject (m : MemoryBindings) (subject : String) : MemoryBindings :=
  { m with entries := m.entries.filter fun b => b.subject ≠ subject }

def elapse (m : MemoryBindings) (d : Duration) : MemoryBindings := { m with now := m.now + d.nanos }

instance : BindingStore MemoryBindings where
  put m id subject ttl :=
    match m.insert? id subject ttl with
    | some m => (.ok (), m)
    | none => (.error .clockExhausted, m)
  get m id := (.ok (m.get? id), m)
  remove m id := (.ok (), m.erase id)
  removeSubject m subject := (.ok (m.count subject), m.eraseSubject subject)

def describeEmpty : String := "MemoryTokenBindingStore \x7b entries: 0 \x7d"

end MemoryBindings

end Countersign
