import Countersign.Nonce.Ledger
import Countersign.Proofs.Text.Separator

/-!
# What a ledger remembers

A recorded key stays in the ledger until its time is over: no presentation of
this or another key moves the instant at which it is forgotten. Until then it is
refused. Access ids without the separating character share no keys, so what is
remembered of one id is no matter of the others.
-/

set_option autoImplicit false

namespace Countersign.NonceLedger

def Remembers (l : NonceLedger) (k : String) (limit : Nat) : Prop :=
  ∃ e ∈ l.entries, e.key = k ∧ e.expiry = limit

def atInstant (l : NonceLedger) (instant : Nat) : NonceLedger := { l with now := instant }

theorem live_of_remembers (l : NonceLedger) (k : String) (limit : Nat) (h : l.Remembers k limit)
    (hn : l.now < limit) : l.isLive k = true := by
  obtain ⟨e, he, hk, hx⟩ := h
  rw [isLive, List.any_eq_true]
  exact ⟨e, he, by simp [hk, hx, hn]⟩

theorem check_refuses (l : NonceLedger) (accessId nonce : String) (ttl : Duration) (limit : Nat)
    (h : l.Remembers (key accessId nonce) limit) (hn : l.now < limit) :
    (l.checkAndRecord accessId nonce ttl).1 = false := by
  have hl := live_of_remembers l _ limit h hn
  simp [checkAndRecord, hl]

theorem check_records (l : NonceLedger) (accessId nonce : String) (ttl : Duration)
    (h : (l.checkAndRecord accessId nonce ttl).1 = true) :
    (l.checkAndRecord accessId nonce ttl).2.Remembers (key accessId nonce)
      (l.now + (ttl.min maxTtl).nanos) := by
  by_cases hl : l.isLive (key accessId nonce) = true
  · simp [checkAndRecord, hl] at h
  · rw [checkAndRecord, if_neg hl]
    exact ⟨_, List.mem_cons_self, rfl, rfl⟩

theorem check_keeps (l : NonceLedger) (accessId nonce : String) (ttl : Duration) (k : String)
    (limit : Nat) (h : l.Remembers k limit) (hn : l.now < limit) :
    (l.checkAndRecord accessId nonce ttl).2.Remembers k limit := by
  by_cases hl : l.isLive (key accessId nonce) = true
  · rw [checkAndRecord, if_pos hl]
    exact h
  · have hne : k ≠ key accessId nonce := by
      rintro rfl
      exact hl (live_of_remembers l _ limit h hn)
    obtain ⟨e, he, hk, hx⟩ := h
    rw [checkAndRecord, if_neg hl]
    refine ⟨e, List.mem_cons_of_mem _ (List.mem_filter.mpr ⟨he, ?_⟩), hk, hx⟩
    rw [hk]
    exact decide_eq_true hne

/-! ## Keys of different access ids -/

theorem key_chars (accessId nonce : String) :
    (key accessId nonce).toList = accessId.toList ++ '\x1f' :: nonce.toList := by
  simp [key, String.toList_append]

theorem key_inj (accessId other nonce mark : String) (hid : '\x1f' ∉ accessId.toList)
    (hother : '\x1f' ∉ other.toList) (h : key accessId nonce = key other mark) :
    accessId = other ∧ nonce = mark := by
  have hchars := congrArg String.toList h
  rw [key_chars, key_chars] at hchars
  obtain ⟨hids, hnonces⟩ := Text.first_separator '\x1f' _ _ _ _ hid hother hchars
  exact ⟨String.toList_inj.mp hids, String.toList_inj.mp hnonces⟩

theorem live_iff (l : NonceLedger) (k : String) (instant : Nat) :
    (l.atInstant instant).isLive k = true ↔ ∃ e ∈ l.entries, e.key = k ∧ instant < e.expiry := by
  simp only [isLive, atInstant, List.any_eq_true, Bool.and_eq_true, beq_iff_eq]
  exact exists_congr fun e => and_congr_right fun _ => and_congr_right fun _ => decide_eq_true_iff

/-- What a presentation leaves remembered: its own key until the end of its time if that was fresh,
and everything else as it was. -/
theorem live_check (l : NonceLedger) (accessId nonce : String) (ttl : Duration) (k : String)
    (instant : Nat) :
    ((l.checkAndRecord accessId nonce ttl).2.atInstant instant).isLive k = true ↔
      if k = key accessId nonce ∧ l.isLive (key accessId nonce) = false then
        instant < l.now + (ttl.min maxTtl).nanos
      else (l.atInstant instant).isLive k = true := by
  by_cases hl : l.isLive (key accessId nonce) = true
  · rw [checkAndRecord, if_pos hl, if_neg (fun h => Bool.eq_false_iff.mp h.2 hl)]
  · rw [checkAndRecord, if_neg hl, live_iff]
    rw [Bool.not_eq_true] at hl
    by_cases hk : k = key accessId nonce
    · rw [if_pos ⟨hk, hl⟩]
      constructor
      · rintro ⟨e, he, hkey, hlt⟩
        rcases List.mem_cons.mp he with rfl | hold
        · exact hlt
        · exact absurd (hkey.trans hk) (of_decide_eq_true (List.mem_filter.mp hold).2)
      · intro hlt
        exact ⟨_, List.mem_cons_self, hk.symm, hlt⟩
    · rw [if_neg (fun h => hk h.1), live_iff]
      constructor
      · rintro ⟨e, he, hkey, hlt⟩
        rcases List.mem_cons.mp he with rfl | hold
        · exact absurd hkey.symm hk
        · exact ⟨e, (List.mem_filter.mp hold).1, hkey, hlt⟩
      · rintro ⟨e, he, hkey, hlt⟩
        have hkept : decide (e.key ≠ key accessId nonce) = true :=
          decide_eq_true fun h => hk (hkey.symm.trans h)
        exact ⟨e, List.mem_cons_of_mem _ (List.mem_filter.mpr ⟨he, hkept⟩), hkey, hlt⟩

def Alike (accessId : String) (l m : NonceLedger) : Prop :=
  ∀ nonce instant, (l.atInstant instant).isLive (key accessId nonce) =
    (m.atInstant instant).isLive (key accessId nonce)

theorem check_fst (l : NonceLedger) (accessId nonce : String) (ttl : Duration) :
    (l.checkAndRecord accessId nonce ttl).1 = !l.isLive (key accessId nonce) := by
  by_cases hl : l.isLive (key accessId nonce) = true
  · rw [checkAndRecord, if_pos hl, hl]
    rfl
  · rw [checkAndRecord, if_neg hl, Bool.eq_false_iff.mpr hl]
    rfl

theorem check_alike (l m : NonceLedger) (accessId nonce : String) (ttl : Duration)
    (hnow : l.now = m.now) (h : Alike accessId l m) :
    (l.checkAndRecord accessId nonce ttl).1 = (m.checkAndRecord accessId nonce ttl).1 ∧
      Alike accessId (l.checkAndRecord accessId nonce ttl).2
        (m.checkAndRecord accessId nonce ttl).2 := by
  have hlive : l.isLive (key accessId nonce) = m.isLive (key accessId nonce) := by
    have hat := h nonce l.now
    rwa [show m.atInstant l.now = m by rw [hnow]; rfl] at hat
  constructor
  · rw [check_fst, check_fst, hlive]
  · intro mark instant
    rw [Bool.eq_iff_iff, live_check, live_check, hlive, hnow, h mark instant]

/-- The nonces of one access id are no matter of another. -/
theorem check_other (l : NonceLedger) (accessId other nonce : String) (ttl : Duration)
    (hid : '\x1f' ∉ accessId.toList) (hother : '\x1f' ∉ other.toList) (hne : accessId ≠ other) :
    Alike accessId l (l.checkAndRecord other nonce ttl).2 := by
  intro mark instant
  rw [Bool.eq_iff_iff, live_check, if_neg]
  rintro ⟨hkey, _⟩
  exact hne (key_inj accessId other mark nonce hid hother hkey).1

end Countersign.NonceLedger
