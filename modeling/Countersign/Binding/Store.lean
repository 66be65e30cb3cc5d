import Countersign.Time.Duration

/-!
# Binding stores

A token is accepted only while a store binds its id to its subject. A store can
bind an id for a time, tell what an id is bound to, unbind an id, and unbind all
ids of a subject; any of these may fail.
-/

set_option autoImplicit false

namespace Countersign

inductive StoreFailure where
  | unavailable (detail : String)
  /-- The end of a binding lies beyond what the clock of the store can count. -/
  | clockExhausted
deriving DecidableEq, Repr

def StoreFailure.message : StoreFailure → String
  | unavailable t => t
  | clockExhausted => "overflow when adding duration to instant"

class BindingStore (σ : Type) where
  put : σ → (id subject : String) → (ttl : Duration) → Except StoreFailure Unit × σ
  get : σ → (id : String) → Except StoreFailure (Option String) × σ
  remove : σ → (id : String) → Except StoreFailure Unit × σ
  removeSubject : σ → (subject : String) → Except StoreFailure Nat × σ

end Countersign
