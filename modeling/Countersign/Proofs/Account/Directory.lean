import Countersign.Account.Directory
import Mathlib.Data.List.Dedup
import Mathlib.Data.List.Induction

/-!
# Directories and the insertions behind them

A directory holds one account for each pair of id and version, the one that was
inserted last. So the list of insertions alone says what a look-up finds, and an
insertion is seen under its own id only.
-/

set_option autoImplicit false

namespace Countersign.Directory

def place (a : Account) : String × Option String := (a.accessId, a.version)

/-- Among accounts in the order of their insertion, the last one of an id and a version. -/
def Latest (accounts : List Account) (accessId : String) (version : Option String)
    (a : Account) : Prop :=
  ∃ earlier later, accounts = earlier ++ a :: later ∧ place a = (accessId, version) ∧
    ∀ b ∈ later, place b ≠ (accessId, version)

theorem is_at_iff (accessId : String) (version : Option String) (a : Account) :
    isAt accessId version a = true ↔ place a = (accessId, version) := by
  simp [isAt, place]

theorem of_list_snoc (accounts : List Account) (a : Account) :
    ofList (accounts ++ [a]) = (ofList accounts).insert a := by
  simp [ofList, List.foldl_append]

/-! ## What is found -/

theorem find_insert (d : Directory) (a : Account) (accessId : String) (version : Option String) :
    (d.insert a).find? accessId version =
      if isAt accessId version a then some a else d.find? accessId version := by
  by_cases ha : isAt accessId version a = true
  · rw [if_pos ha, find?, insert, List.find?_cons, ha]
  · have hother : ∀ b : Account, isAt accessId version b = true →
        isAt a.accessId a.version b = false := by
      intro b hb
      rw [Bool.eq_false_iff]
      intro hsame
      rw [is_at_iff] at hb hsame
      exact ha ((is_at_iff accessId version a).mpr (hsame.symm.trans hb))
    have hrest : (fun b => decide ((!isAt a.accessId a.version b) = true ∧
        isAt accessId version b = true)) = isAt accessId version := by
      funext b
      by_cases hb : isAt accessId version b = true
      · simp [hb, hother b hb]
      · simp [hb]
    rw [if_neg ha, find?, insert, List.find?_cons_of_neg ha, List.find?_filter, hrest, find?]

theorem find_of_list (accounts : List Account) (accessId : String) (version : Option String) :
    (ofList accounts).find? accessId version =
      accounts.reverse.find? (isAt accessId version) := by
  induction accounts using List.reverseRecOn with
  | nil => rfl
  | append_singleton accounts a ih =>
    rw [of_list_snoc, find_insert, ih, List.reverse_append]
    by_cases ha : isAt accessId version a = true <;> simp [ha]

theorem find_iff (accounts : List Account) (accessId : String) (version : Option String)
    (a : Account) :
    (ofList accounts).find? accessId version = some a ↔ Latest accounts accessId version a := by
  rw [find_of_list, List.find?_eq_some_iff_append, is_at_iff]
  constructor
  · rintro ⟨hplace, later, earlier, hsplit, hlater⟩
    refine ⟨earlier.reverse, later.reverse, ?_, hplace, ?_⟩
    · have hwhole := congrArg List.reverse hsplit
      simpa using hwhole
    · intro b hb hsame
      have hnot := hlater b (List.mem_reverse.mp hb)
      rw [(is_at_iff accessId version b).mpr hsame] at hnot
      cases hnot
  · rintro ⟨earlier, later, rfl, hplace, hlater⟩
    refine ⟨hplace, later.reverse, earlier.reverse, by simp, ?_⟩
    intro b hb
    have hnot := hlater b (List.mem_reverse.mp hb)
    rw [ne_eq, ← is_at_iff] at hnot
    simpa using hnot

theorem find_none_iff (accounts : List Account) (accessId : String) (version : Option String) :
    (ofList accounts).find? accessId version = none ↔
      ∀ b ∈ accounts, place b ≠ (accessId, version) := by
  rw [find_of_list, List.find?_eq_none]
  simp only [List.mem_reverse, is_at_iff, ne_eq]

/-! ## How many there are -/

theorem mem_places (accounts : List Account) (p : String × Option String) :
    p ∈ (ofList accounts).accounts.map place ↔ p ∈ accounts.map place := by
  induction accounts using List.reverseRecOn with
  | nil => rfl
  | append_singleton accounts a ih =>
    have hinserted : p ∈ ((ofList accounts).insert a).accounts.map place ↔
        p = place a ∨ p ∈ (ofList accounts).accounts.map place := by
      by_cases hp : p = place a
      · simp [insert, hp]
      · simp only [insert, List.map_cons, List.mem_cons, hp, false_or, List.mem_map,
          List.mem_filter, Bool.not_eq_true', Bool.eq_false_iff, ne_eq, is_at_iff]
        constructor
        · rintro ⟨b, ⟨hb, _⟩, rfl⟩
          exact ⟨b, hb, rfl⟩
        · rintro ⟨b, hb, rfl⟩
          exact ⟨b, ⟨hb, hp⟩, rfl⟩
    rw [of_list_snoc, hinserted, ih]
    simp [or_comm]

theorem places_nodup (accounts : List Account) :
    ((ofList accounts).accounts.map place).Nodup := by
  induction accounts using List.reverseRecOn with
  | nil => exact List.nodup_nil
  | append_singleton accounts a ih =>
    rw [of_list_snoc]
    refine List.nodup_cons.mpr ⟨?_, ih.sublist (List.filter_sublist.map _)⟩
    intro hmem
    obtain ⟨b, hb, hplace⟩ := List.mem_map.mp hmem
    have hkept := (List.mem_filter.mp hb).2
    rw [(is_at_iff a.accessId a.version b).mpr hplace] at hkept
    cases hkept

theorem size_of_list (accounts : List Account) :
    (ofList accounts).size = (accounts.map place).dedup.length := by
  have hperm : ((ofList accounts).accounts.map place).Perm (accounts.map place).dedup :=
    (List.perm_ext_iff_of_nodup (places_nodup accounts) (List.nodup_dedup _)).mpr fun p =>
      (mem_places accounts p).trans List.mem_dedup.symm
  rw [size, ← List.length_map place, hperm.length_eq]

/-! ## What is resolved -/

theorem resolve_iff (accounts : List Account) (accessId : String) (version : Option String)
    (a : Account) :
    (ofList accounts).resolve accessId version = some a ↔
      Latest accounts accessId version a ∨
        (version ≠ none ∧ (∀ b ∈ accounts, place b ≠ (accessId, version)) ∧
          Latest accounts accessId none a) := by
  rw [resolve, Option.or_eq_some_iff, find_iff, find_none_iff]
  cases version with
  | none => simp
  | some v => simp [find_iff]

theorem resolve_none_iff (accounts : List Account) (accessId : String) (version : Option String) :
    (ofList accounts).resolve accessId version = none ↔
      ∀ b ∈ accounts, place b ≠ (accessId, version) ∧ place b ≠ (accessId, none) := by
  rw [resolve, Option.or_eq_none_iff, find_none_iff]
  cases version with
  | none => simp
  | some v =>
    rw [Option.isSome_some, if_pos rfl, find_none_iff]
    exact ⟨fun h b hb => ⟨h.1 b hb, h.2 b hb⟩,
      fun h => ⟨fun b hb => (h b hb).1, fun b hb => (h b hb).2⟩⟩

theorem resolve_place (accounts : List Account) (accessId : String) (version : Option String)
    (a : Account) (h : (ofList accounts).resolve accessId version = some a) :
    a.accessId = accessId ∧ (a.version = version ∨ a.version = none) := by
  rcases (resolve_iff accounts accessId version a).mp h with hexact | ⟨_, _, hplain⟩
  · obtain ⟨_, _, _, hplace, _⟩ := hexact
    exact ⟨congrArg Prod.fst hplace, Or.inl (congrArg Prod.snd hplace)⟩
  · obtain ⟨_, _, _, hplace, _⟩ := hplain
    exact ⟨congrArg Prod.fst hplace, Or.inr (congrArg Prod.snd hplace)⟩

theorem resolve_other (d : Directory) (a : Account) (accessId : String) (version : Option String)
    (ha : a.accessId ≠ accessId) :
    (d.insert a).resolve accessId version = d.resolve accessId version := by
  have hfind : ∀ v, (d.insert a).find? accessId v = d.find? accessId v := by
    intro v
    rw [find_insert, if_neg]
    simp [isAt, ha]
  rw [resolve, resolve, hfind, hfind]

/-- A look-up gives the account that was inserted last under exactly this id and version, or, if
there never was one and a version was asked for, the last one without a version. So an account that
is found has the id and either the version or none, an insertion leaves the look-ups of other ids
alone, and there are as many accounts as different pairs were inserted. -/
theorem resolves_latest (accounts : List Account) :
    (∀ accessId version a, (ofList accounts).resolver accessId version = .ok (some a) ↔
      Latest accounts accessId version a ∨
        (version ≠ none ∧ (∀ b ∈ accounts, place b ≠ (accessId, version)) ∧
          Latest accounts accessId none a)) ∧
    (∀ accessId version, (ofList accounts).resolver accessId version = .ok none ↔
      ∀ b ∈ accounts, place b ≠ (accessId, version) ∧ place b ≠ (accessId, none)) ∧
    (∀ accessId version a, (ofList accounts).resolver accessId version = .ok (some a) →
      a.accessId = accessId ∧ (a.version = version ∨ a.version = none)) ∧
    (∀ a accessId version, a.accessId ≠ accessId →
      (ofList (accounts ++ [a])).resolver accessId version =
        (ofList accounts).resolver accessId version) ∧
    (ofList accounts).size = (accounts.map place).dedup.length := by
  refine ⟨?_, ?_, ?_, ?_, size_of_list accounts⟩
  · intro accessId version a
    rw [resolver, Except.ok.injEq, resolve_iff]
  · intro accessId version
    rw [resolver, Except.ok.injEq, resolve_none_iff]
  · intro accessId version a h
    exact resolve_place accounts accessId version a (Except.ok.inj h)
  · intro a accessId version ha
    rw [resolver, resolver, of_list_snoc, resolve_other _ a accessId version ha]

end Countersign.Directory
