import Countersign.Binding.Server

/-!
# What commands leave of a server

A command changes no slot but that of its key, and no command moves the clock.
Time alone takes slots away: what is there later has been there before.
-/

set_option autoImplicit false

namespace Countersign.Server

theorem lookup_erased (key k : String) (slots : List (String × Slot)) :
    (slots.filter fun e => e.1 ≠ key).lookup k = if k = key then none else slots.lookup k := by
  induction slots with
  | nil => simp
  | cons e slots ih =>
    obtain ⟨name, x⟩ := e
    by_cases hname : name = key
    · rw [List.filter_cons_of_neg (by simp [hname]), ih]
      by_cases hk : k = key
      · simp [hk]
      · have hne : (k == name) = false := by simp [hname, hk]
        simp [List.lookup_cons, hne]
    · rw [List.filter_cons_of_pos (by simp [hname]), List.lookup_cons, List.lookup_cons]
      by_cases hk : k = name
      · simp [hk, hname]
      · have hne : (k == name) = false := by simp [hk]
        simp only [hne]
        exact ih

theorem slot_erase (s : Server) (key k : String) :
    (s.erase key).slot? k = if k = key then none else s.slot? k := by
  rw [slot?, erase, lookup_erased]
  by_cases hk : k = key <;> simp [hk, slot?]

theorem slot_place (s : Server) (key k : String) (x : Slot) :
    (s.place key x).slot? k = if k = key then (some x).filter (isLive s.now) else s.slot? k := by
  by_cases hk : k = key
  · simp [slot?, place, hk]
  · have hne : (k == key) = false := by simp [hk]
    simp only [slot?, place, List.lookup_cons, hne, if_neg hk]
    exact (slot_erase s key k).trans (if_neg hk)

theorem slot_live (s : Server) (k : String) (x : Slot) (h : s.slot? k = some x) :
    isLive s.now x = true :=
  (Option.filter_eq_some_iff.mp h).2

theorem slot_elapse (s : Server) (ms : Nat) (k : String) :
    (s.elapse ms).slot? k = (s.slot? k).filter (isLive (s.now + ms)) := by
  have hearlier : ∀ x : Slot, isLive (s.now + ms) x = true → isLive s.now x = true := by
    intro x hx
    unfold isLive at *
    cases hd : x.deadline with
    | none => rfl
    | some t =>
      simp only [hd, decide_eq_true_eq] at hx ⊢
      omega
  have hboth : ∀ x : Slot, (isLive s.now x && isLive (s.now + ms) x) = isLive (s.now + ms) x := by
    intro x
    by_cases hlater : isLive (s.now + ms) x = true
    · rw [hlater, hearlier x hlater]
      rfl
    · simp [hlater]
  simp only [slot?, elapse, Option.filter_filter, hboth]

theorem slot_mem (s : Server) (k : String) (x : Slot) (h : s.slot? k = some x) :
    (k, x) ∈ s.slots := by
  obtain ⟨before, after, hslots, _⟩ :=
    List.lookup_eq_some_iff.mp (Option.filter_eq_some_iff.mp h).1
  rw [hslots]
  exact List.mem_append_right before List.mem_cons_self

theorem slot_elapse_of_live (s : Server) (ms : Nat)
    (h : ∀ e ∈ s.slots, isLive (s.now + ms) e.2 = true) (k : String) :
    (s.elapse ms).slot? k = s.slot? k := by
  rw [slot_elapse]
  cases hslot : s.slot? k with
  | none => rfl
  | some x => exact Option.filter_eq_some_iff.mpr ⟨rfl, h (k, x) (slot_mem s k x hslot)⟩

def Command.key : Command → String
  | .get key => key
  | .setFor key _ _ => key
  | .addMember key _ => key
  | .removeMember key _ => key
  | .members key => key
  | .delete key => key
  | .expireNew key _ => key
  | .expireLater key _ => key

theorem expire_cases (s : Server) (key : String) (deadline : Nat) (accepts : Option Nat → Bool) :
    (s.expire key deadline accepts).2 = s ∨ (s.expire key deadline accepts).2 = s.erase key ∨
      ∃ x, (s.expire key deadline accepts).2 = s.place key x := by
  unfold expire
  split
  · exact Or.inl rfl
  · split
    · exact Or.inr (Or.inr ⟨_, rfl⟩)
    · exact Or.inl rfl

theorem run_cases (s : Server) (c : Command) :
    (s.run c).2 = s ∨ (s.run c).2 = s.erase c.key ∨ ∃ x, (s.run c).2 = s.place c.key x := by
  cases c with
  | get key =>
    simp only [run]
    split <;> exact Or.inl rfl
  | members key =>
    simp only [run]
    split <;> exact Or.inl rfl
  | setFor key text seconds => exact Or.inr (Or.inr ⟨_, rfl⟩)
  | delete key => exact Or.inr (Or.inl rfl)
  | addMember key member =>
    simp only [run, addMember]
    split
    · exact Or.inr (Or.inr ⟨_, rfl⟩)
    · exact Or.inl rfl
    · split
      · exact Or.inl rfl
      · exact Or.inr (Or.inr ⟨_, rfl⟩)
  | removeMember key member =>
    simp only [run, removeMember]
    split
    · exact Or.inl rfl
    · exact Or.inl rfl
    · split
      · split
        · exact Or.inr (Or.inl rfl)
        · exact Or.inr (Or.inr ⟨_, rfl⟩)
      · exact Or.inl rfl
  | expireNew key seconds => exact expire_cases s key _ _
  | expireLater key seconds => exact expire_cases s key _ _

@[simp] theorem now_run (s : Server) (c : Command) : (s.run c).2.now = s.now := by
  rcases run_cases s c with h | h | ⟨x, h⟩ <;> rw [h] <;> rfl

theorem slot_run_other (s : Server) (c : Command) (k : String) (hk : k ≠ c.key) :
    (s.run c).2.slot? k = s.slot? k := by
  rcases run_cases s c with h | h | ⟨x, h⟩
  · rw [h]
  · rw [h, slot_erase, if_neg hk]
  · rw [h, slot_place, if_neg hk]

theorem slot_run_all_other (s : Server) (cs : List Command) (k : String)
    (hk : ∀ c ∈ cs, k ≠ c.key) : (s.runAll cs).2.slot? k = s.slot? k := by
  induction cs generalizing s with
  | nil => rfl
  | cons c cs ih =>
    have hhead := slot_run_other s c k (hk c List.mem_cons_self)
    have htail := ih (s.run c).2 (fun d hd => hk d (List.mem_cons_of_mem c hd))
    exact htail.trans hhead

theorem slot_delete_all (s : Server) (keys : List String) (k : String) :
    (s.runAll (keys.map .delete)).2.slot? k = if k ∈ keys then none else s.slot? k := by
  induction keys generalizing s with
  | nil => simp [runAll]
  | cons key keys ih =>
    have hstep : (s.runAll (.delete key :: keys.map .delete)).2 =
        ((s.erase key).runAll (keys.map .delete)).2 := rfl
    rw [List.map_cons, hstep, ih, slot_erase]
    by_cases hk : k = key
    · simp [hk]
    · simp [hk]

def grown (member : String) : Option Slot → Option Slot
  | none => some ⟨.set [member], none⟩
  | some ⟨.set xs, t⟩ => some ⟨.set (if member ∈ xs then xs else xs ++ [member]), t⟩
  | some ⟨.text x, t⟩ => some ⟨.text x, t⟩

/-- A set without a member, and no set if that was the last one. -/
def shrunk (member : String) : Option Slot → Option Slot
  | some ⟨.set xs, t⟩ =>
    if member ∈ xs ∧ xs.filter (· ≠ member) = [] then none
    else some ⟨.set (xs.filter (· ≠ member)), t⟩
  | x => x

theorem slot_place_live (s : Server) (key : String) (x : Slot) (hx : isLive s.now x = true) :
    (s.place key x).slot? key = some x := by
  rw [slot_place, if_pos rfl]
  exact Option.filter_eq_some_iff.mpr ⟨rfl, hx⟩

theorem slot_add_member (s : Server) (key member : String) :
    (s.addMember key member).2.slot? key = grown member (s.slot? key) := by
  cases h : s.slot? key with
  | none =>
    simp only [addMember, h, grown]
    exact slot_place_live s key _ rfl
  | some x =>
    obtain ⟨value, t⟩ := x
    cases value with
    | text x => simp [addMember, h, grown]
    | set xs =>
      by_cases hm : member ∈ xs
      · simp [addMember, h, grown, hm]
      · simp only [addMember, h, grown, if_neg hm]
        exact slot_place_live s key _ (slot_live s key ⟨.set xs, t⟩ h)

theorem slot_remove_member (s : Server) (key member : String) :
    (s.removeMember key member).2.slot? key = shrunk member (s.slot? key) := by
  cases h : s.slot? key with
  | none => simp [removeMember, h, shrunk]
  | some x =>
    obtain ⟨value, t⟩ := x
    cases value with
    | text x => simp [removeMember, h, shrunk]
    | set xs =>
      by_cases hm : member ∈ xs
      · cases hrest : xs.filter (· ≠ member) with
        | nil =>
          simp only [removeMember, h, shrunk, if_pos hm, hrest]
          rw [if_pos ⟨hm, trivial⟩, slot_erase, if_pos rfl]
        | cons y ys =>
          simp only [removeMember, h, shrunk, if_pos hm, hrest]
          rw [if_neg (by simp)]
          exact slot_place_live s key _ (slot_live s key ⟨.set xs, t⟩ h)
      · have hsame : xs.filter (· ≠ member) = xs := by
          rw [List.filter_eq_self]
          intro y hy
          simp only [decide_eq_true_eq]
          rintro rfl
          exact hm hy
        simp only [removeMember, h, shrunk, if_neg hm, hsame]
        rw [if_neg (fun hand => hm hand.1)]

theorem slot_expire (s : Server) (key : String) (deadline : Nat) (accepts : Option Nat → Bool)
    (hlater : s.now < deadline) :
    (s.expire key deadline accepts).2.slot? key =
      (s.slot? key).map fun x => if accepts x.deadline then ⟨x.value, some deadline⟩ else x := by
  cases h : s.slot? key with
  | none => simp [expire, h]
  | some x =>
    obtain ⟨value, t⟩ := x
    by_cases ha : accepts t = true
    · simp only [expire, h, ha, if_true, Option.map_some]
      exact slot_place_live s key _ (by simpa [isLive] using hlater)
    · simp [expire, h, ha]

theorem now_lt_deadline (s : Server) (seconds : UInt64) (h : 0 < seconds.toNat) :
    s.now < s.deadlineAfter seconds := by
  unfold deadlineAfter
  omega

theorem slot_expire_new (s : Server) (key : String) (seconds : UInt64) (h : 0 < seconds.toNat) :
    (s.run (.expireNew key seconds)).2.slot? key = (s.slot? key).map fun x =>
      if x.deadline.isNone then ⟨x.value, some (s.deadlineAfter seconds)⟩ else x :=
  slot_expire s key _ _ (now_lt_deadline s seconds h)

theorem slot_expire_later (s : Server) (key : String) (seconds : UInt64) (h : 0 < seconds.toNat) :
    (s.run (.expireLater key seconds)).2.slot? key = (s.slot? key).map fun x =>
      if x.deadline.any (· < s.deadlineAfter seconds) then
        ⟨x.value, some (s.deadlineAfter seconds)⟩
      else x :=
  slot_expire s key _ _ (now_lt_deadline s seconds h)

/-! ## Replies -/

theorem add_member_right (s : Server) (key member : String)
    (h : ∀ x t, s.slot? key ≠ some ⟨.text x, t⟩) : (s.addMember key member).1 ≠ .wrongKind := by
  unfold addMember
  split
  · simp
  · next x t hslot => exact absurd hslot (h x t)
  · split <;> simp

theorem remove_member_right (s : Server) (key member : String)
    (h : ∀ x t, s.slot? key ≠ some ⟨.text x, t⟩) : (s.removeMember key member).1 ≠ .wrongKind := by
  unfold removeMember
  split
  · simp
  · next x t hslot => exact absurd hslot (h x t)
  · split
    · split <;> simp
    · simp

theorem expire_right (s : Server) (key : String) (deadline : Nat) (accepts : Option Nat → Bool) :
    (s.expire key deadline accepts).1 ≠ .wrongKind := by
  unfold expire
  split
  · simp
  · split <;> simp

theorem replies_delete_all (s : Server) (keys : List String) (h : keys.Nodup) :
    (s.runAll (keys.map .delete)).1 =
      keys.map fun k => .count (if (s.slot? k).isSome then 1 else 0) := by
  induction keys generalizing s with
  | nil => rfl
  | cons key keys ih =>
    have hstep : (s.runAll ((key :: keys).map .delete)).1 =
        .count (if (s.slot? key).isSome then 1 else 0) ::
          ((s.erase key).runAll (keys.map .delete)).1 := rfl
    have hnot := (List.nodup_cons.mp h).1
    rw [hstep, ih _ (List.nodup_cons.mp h).2, List.map_cons]
    congr 1
    apply List.map_congr_left
    intro k hk
    have hne : k ≠ key := fun heq => hnot (heq ▸ hk)
    rw [slot_erase, if_neg hne]

end Countersign.Server
