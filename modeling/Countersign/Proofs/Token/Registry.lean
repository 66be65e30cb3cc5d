import Countersign.Binding.Memory
import Countersign.Token.Registry

/-!
# What the registry does to bindings in memory

An operation that fails leaves the bindings as they were. Issuing adds the
binding of the new token for the time it has left, revoking removes the binding
of the token's id or those of the subject, and validating only reads.
-/

set_option autoImplicit false

namespace Countersign.Registry

theorem bind_put {σ : Type} [BindingStore σ] (now : Millis) (t : Token) (s after : σ)
    (answer : Except StoreFailure Unit)
    (h : BindingStore.put s t.id t.subject (remaining now t.expireTime) = (answer, after)) :
    bind now (.ok t) s = ((orFailure answer).map fun _ => t, after) := by
  rw [bind, h]

variable (m : Mint) (now : Millis) (kind : TokenKind) (value : String) (s : MemoryBindings)

theorem put_room (id subject : String) (ttl : Duration)
    (h : s.now + ttl.nanos < MemoryBindings.horizon) : BindingStore.put s id subject ttl =
      (.ok (), { s with entries := ⟨id, subject, s.now + ttl.nanos⟩ :: (s.erase id).entries }) := by
  simp only [BindingStore.put, MemoryBindings.insert?, if_pos h]

theorem put_cases (id subject : String) (ttl : Duration) :
    BindingStore.put s id subject ttl = (.error .clockExhausted, s) ∨
      BindingStore.put s id subject ttl =
        (.ok (), { s with entries := ⟨id, subject, s.now + ttl.nanos⟩ :: (s.erase id).entries }) := by
  by_cases hroom : s.now + ttl.nanos < MemoryBindings.horizon
  · exact Or.inr (put_room s id subject ttl hroom)
  · refine Or.inl ?_
    simp only [BindingStore.put, MemoryBindings.insert?, if_neg hroom]

theorem bind_cases (issued : Except TokenFailure Token) :
    (∃ f, bind now issued s = (.error f, s)) ∨
      ∃ t, issued = .ok t ∧ bind now issued s = (.ok t,
        { s with
          entries := ⟨t.id, t.subject, s.now + (remaining now t.expireTime).nanos⟩ ::
            (s.erase t.id).entries }) := by
  cases issued with
  | error f => exact Or.inl ⟨f, rfl⟩
  | ok t =>
    rcases put_cases s t.id t.subject (remaining now t.expireTime) with h | h
    · exact Or.inl ⟨_, bind_put now t s _ _ h⟩
    · exact Or.inr ⟨t, rfl, bind_put now t s _ _ h⟩

theorem validate_store : (validate m now kind value s).2 = s := by
  unfold validate
  cases m.parse now kind value with
  | error f => rfl
  | ok t =>
    simp only [BindingStore.get]
    split <;> rfl

theorem revoke_cases :
    (∃ f, revoke m kind value s = (.error f, s)) ∨
      ∃ t, m.decode kind value = .ok t ∧ revoke m kind value s = (.ok t, s.erase t.id) := by
  unfold revoke
  cases m.decode kind value with
  | error f => exact Or.inl ⟨.flawed f, rfl⟩
  | ok t => exact Or.inr ⟨t, rfl, rfl⟩

theorem revoke_all_eq (subject : String) :
    revokeAll subject s = (.ok (s.count subject), s.eraseSubject subject) := rfl

end Countersign.Registry
