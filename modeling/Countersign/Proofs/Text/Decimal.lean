import Countersign.Proofs.Text.Blank
import Countersign.Text.Integer

/-!
# Decimal text of 64-bit integers

Times cross the wire as decimal text. What is written for an integer is read
back as that integer, with or without the trimming that readers do first, and a
text that is read holds nothing but digits and signs.
-/

set_option autoImplicit false

namespace Countersign.Text

theorem digit_eq (c : Char) :
    digit? c = if c.isDigit then some (c.toNat - 48) else none := by
  by_cases h : c.isDigit = true
  · have hr : '0' ≤ c ∧ c ≤ '9' := by simpa [Char.isDigit, Char.le_def] using h
    simp [digit?, h, hr]
  · have hr : ¬ ('0' ≤ c ∧ c ≤ '9') := by simpa [Char.isDigit, Char.le_def] using h
    simp [digit?, h, hr]

theorem digits_from_eq (cs : List Char) (acc : Nat) :
    digitsFrom acc cs =
      if cs.all Char.isDigit then some (Nat.ofDigitChars 10 cs acc) else none := by
  induction cs generalizing acc with
  | nil => simp [digitsFrom]
  | cons c cs ih =>
    rw [digitsFrom, digit_eq]
    by_cases h : c.isDigit = true
    · simp only [h, if_true, ih, Option.bind_some, List.all_cons, Bool.true_and,
        Nat.ofDigitChars_cons, Nat.mul_comm, Char.reduceToNat]
    · simp [h]

theorem nat_digits (n : Nat) : nat? (Nat.toDigits 10 n) = some n := by
  have hne : Nat.toDigits 10 n ≠ [] := Nat.toDigits_ne_nil
  have hall : (Nat.toDigits 10 n).all Char.isDigit = true :=
    List.all_eq_true.mpr fun _ hc => Nat.isDigit_of_mem_toDigits (by decide) (by decide) hc
  have heq : nat? (Nat.toDigits 10 n) = digitsFrom 0 (Nat.toDigits 10 n) := by
    cases h : Nat.toDigits 10 n with
    | nil => exact absurd h hne
    | cons c cs => rfl
  rw [heq, digits_from_eq, if_pos hall, Nat.ofDigitChars_ten_toDigits]

theorem int_unsigned (cs : List Char) (h : ∀ c ∈ cs, c.isDigit = true) :
    int? cs = (nat? cs).map Int.ofNat := by
  cases cs with
  | nil => rfl
  | cons c cs =>
    have hdigit := h c (by simp)
    have hplus : c ≠ '+' := by rintro rfl; exact absurd hdigit (by decide)
    have hminus : c ≠ '-' := by rintro rfl; exact absurd hdigit (by decide)
    simp [int?, hplus, hminus]

theorem int_text (n : Int) : int? (toString n).toList = some n := by
  rw [Int.toString_eq_repr, Int.repr_eq_if]
  by_cases h : 0 ≤ n
  · have hall : ∀ c ∈ Nat.toDigits 10 n.toNat, c.isDigit = true :=
      fun _ hc => Nat.isDigit_of_mem_toDigits (by decide) (by decide) hc
    rw [if_pos h, Nat.toList_repr, int_unsigned _ hall, nat_digits]
    simp only [Option.map_some, Int.ofNat_eq_natCast, Option.some.injEq]
    omega
  · rw [if_neg h, String.toList_append, Nat.toList_repr]
    change (nat? (Nat.toDigits 10 (-n).toNat)).map (fun k => -Int.ofNat k) = some n
    rw [nat_digits]
    simp only [Option.map_some, Int.ofNat_eq_natCast, Option.some.injEq]
    omega

theorem int64_text (n : Int64) : int64? (ofInt64 n).toList = some n := by
  rw [int64?, ofInt64, int_text]
  change toInt64? n.toInt = some n
  rw [toInt64?, if_pos ⟨n.minValue_le_toInt, n.toInt_le⟩, Int64.ofInt_toInt]

def IsNumeral (c : Char) : Prop := c.isDigit = true ∨ c = '+' ∨ c = '-'

instance (c : Char) : Decidable (IsNumeral c) := inferInstanceAs (Decidable (_ ∨ _ ∨ _))

theorem nat_chars (cs : List Char) (n : Nat) (h : nat? cs = some n) :
    ∀ c ∈ cs, c.isDigit = true := by
  have hd : digitsFrom 0 cs = some n := by
    cases cs with
    | nil => cases h
    | cons c cs => exact h
  rw [digits_from_eq] at hd
  by_cases hall : cs.all Char.isDigit = true
  · exact List.all_eq_true.mp hall
  · rw [if_neg hall] at hd
    cases hd

theorem int_chars (cs : List Char) (n : Int) (h : int? cs = some n) :
    ∀ c ∈ cs, IsNumeral c := by
  have signed : ∀ (s : Char) (r : List Char), IsNumeral s → (∃ k, nat? r = some k) →
      ∀ c ∈ s :: r, IsNumeral c := by
    rintro s r hs ⟨k, hk⟩ c hc
    rcases List.mem_cons.mp hc with rfl | hc
    · exact hs
    · exact Or.inl (nat_chars r k hk c hc)
  rw [int?.eq_def] at h
  split at h
  · obtain ⟨k, hk, _⟩ := Option.map_eq_some_iff.mp h
    exact signed _ _ (Or.inr (Or.inl rfl)) ⟨k, hk⟩
  · obtain ⟨k, hk, _⟩ := Option.map_eq_some_iff.mp h
    exact signed _ _ (Or.inr (Or.inr rfl)) ⟨k, hk⟩
  · obtain ⟨k, hk, _⟩ := Option.map_eq_some_iff.mp h
    exact fun c hc => Or.inl (nat_chars _ k hk c hc)

theorem int64_chars (cs : List Char) (n : Int64) (h : int64? cs = some n) :
    ∀ c ∈ cs, IsNumeral c := by
  obtain ⟨k, hk, _⟩ := Option.bind_eq_some_iff.mp h
  exact int_chars cs k hk

theorem numeral_not_blank (c : Char) (h : IsNumeral c) : isBlank c = false := by
  rcases h with h | rfl | rfl
  · have hd := Char.isDigit_iff_toNat.mp h
    change 48 ≤ c.toNat ∧ c.toNat ≤ 57 at hd
    simp only [isBlank, Bool.or_eq_false_iff, Bool.and_eq_false_iff, decide_eq_false_iff_not]
    omega
  · decide
  · decide

theorem trimmed_text (n : Int64) : int64? (trim (ofInt64 n).toList) = some n := by
  rw [trim_eq, int64_text]
  exact fun c hc => numeral_not_blank c (int64_chars _ n (int64_text n) c hc)

/-! ## What decimal text denotes -/

def IsDigits (cs : List Char) : Prop := cs ≠ [] ∧ ∀ c ∈ cs, '0' ≤ c ∧ c ≤ '9'

/-- Decimal text of an integer: digits, alone or behind a single sign. -/
inductive Denotes : List Char → Int → Prop where
  | unsigned (ds : List Char) (h : IsDigits ds) : Denotes ds (Nat.ofDigitChars 10 ds 0)
  | plus (ds : List Char) (h : IsDigits ds) : Denotes ('+' :: ds) (Nat.ofDigitChars 10 ds 0)
  | minus (ds : List Char) (h : IsDigits ds) : Denotes ('-' :: ds) (-Nat.ofDigitChars 10 ds 0)

theorem digit_range (c : Char) : '0' ≤ c ∧ c ≤ '9' ↔ c.isDigit = true := by
  simp [Char.isDigit, Char.le_def]

theorem nat_iff (cs : List Char) (n : Nat) :
    nat? cs = some n ↔ IsDigits cs ∧ Nat.ofDigitChars 10 cs 0 = n := by
  have hread : cs ≠ [] → nat? cs = digitsFrom 0 cs := by
    cases cs with
    | nil => exact fun h => absurd rfl h
    | cons c cs => exact fun _ => rfl
  constructor
  · intro h
    have hne : cs ≠ [] := by
      rintro rfl
      cases h
    have hall := nat_chars cs n h
    rw [hread hne, digits_from_eq, if_pos (List.all_eq_true.mpr hall)] at h
    exact ⟨⟨hne, fun c hc => (digit_range c).mpr (hall c hc)⟩, Option.some.inj h⟩
  · rintro ⟨⟨hne, hall⟩, hn⟩
    have hdigits : cs.all Char.isDigit = true :=
      List.all_eq_true.mpr fun c hc => (digit_range c).mp (hall c hc)
    rw [hread hne, digits_from_eq, if_pos hdigits, hn]

theorem int_iff (cs : List Char) (n : Int) : int? cs = some n ↔ Denotes cs n := by
  constructor
  · intro h
    rw [int?.eq_def] at h
    split at h
    · obtain ⟨k, hk, rfl⟩ := Option.map_eq_some_iff.mp h
      obtain ⟨hdigits, rfl⟩ := (nat_iff _ k).mp hk
      exact .plus _ hdigits
    · obtain ⟨k, hk, rfl⟩ := Option.map_eq_some_iff.mp h
      obtain ⟨hdigits, rfl⟩ := (nat_iff _ k).mp hk
      exact .minus _ hdigits
    · obtain ⟨k, hk, rfl⟩ := Option.map_eq_some_iff.mp h
      obtain ⟨hdigits, rfl⟩ := (nat_iff _ k).mp hk
      exact .unsigned _ hdigits
  · intro h
    have hread : ∀ ds, IsDigits ds → nat? ds = some (Nat.ofDigitChars 10 ds 0) :=
      fun ds hds => (nat_iff ds _).mpr ⟨hds, rfl⟩
    cases h with
    | unsigned ds hds =>
      rw [int_unsigned _ fun c hc => (digit_range c).mp (hds.2 c hc), hread _ hds]
      rfl
    | plus ds hds =>
      rw [int?, hread ds hds]
      rfl
    | minus ds hds =>
      rw [int?, hread ds hds]
      rfl

theorem denoted_not_blank (cs : List Char) (n : Int) (h : Denotes cs n) :
    ∀ c ∈ cs, isBlank c = false :=
  fun c hc => numeral_not_blank c (int_chars cs n ((int_iff cs n).mpr h) c hc)

theorem to_int64_iff (n : Int) (a : Int64) : toInt64? n = some a ↔ a.toInt = n := by
  have hmin : Int64.minValue.toInt = -9223372036854775808 := by decide
  have hmax : Int64.maxValue.toInt = 9223372036854775807 := by decide
  rw [toInt64?, hmin, hmax]
  constructor
  · intro h
    split at h
    · rename_i hrange
      obtain rfl := Option.some.inj h
      exact Int64.toInt_ofInt_of_le hrange.1 (by omega)
    · cases h
  · rintro rfl
    have hlow := a.minValue_le_toInt
    have hhigh := a.toInt_le
    rw [if_pos ⟨by omega, by omega⟩, Int64.ofInt_toInt]

/-! ## Reading in 64 bits -/

def withSign (negative : Bool) (n : Nat) : Int := if negative then -n else n

theorem with_sign_plus (n : Nat) : withSign false n = n := rfl

theorem with_sign_minus (n : Nat) : withSign true n = -n := rfl

theorem with_sign_add (negative : Bool) (m n : Nat) :
    withSign negative (m + n) = withSign negative m + withSign negative n := by
  cases negative with
  | false =>
    simp only [with_sign_plus]
    omega
  | true =>
    simp only [with_sign_minus]
    omega

theorem with_sign_tens (negative : Bool) (n : Nat) :
    withSign negative (n * 10) = withSign negative n * 10 := by
  cases negative with
  | false =>
    simp only [with_sign_plus]
    omega
  | true =>
    simp only [with_sign_minus]
    omega

/-- The digits one after the other: ten times what was read before and the next digit to it, or
nothing as soon as one of the two has no room in 64 bits. -/
def digitsIn64 (negative : Bool) (read : Int64) : List Char → Option Int64
  | [] => some read
  | c :: r => (digit? c).bind fun d => (toInt64? (read.toInt * 10)).bind fun tens =>
      (toInt64? (tens.toInt + withSign negative d)).bind fun next => digitsIn64 negative next r

def numeralIn64 (negative : Bool) : List Char → Option Int64
  | [] => none
  | cs => digitsIn64 negative 0 cs

def int64ByDigits? : List Char → Option Int64
  | '+' :: r => numeralIn64 false r
  | '-' :: r => numeralIn64 true r
  | cs => numeralIn64 false cs

theorem digits_from_le (cs : List Char) (acc n : Nat) (h : digitsFrom acc cs = some n) :
    acc ≤ n := by
  induction cs generalizing acc with
  | nil =>
    cases h
    exact Nat.le_refl _
  | cons c cs ih =>
    obtain ⟨d, _, hrest⟩ := Option.bind_eq_some_iff.mp h
    have hle := ih _ hrest
    omega

theorem no_room (negative : Bool) (m n : Nat) (hle : m ≤ n)
    (h : toInt64? (withSign negative m) = none) : toInt64? (withSign negative n) = none := by
  have hmin : Int64.minValue.toInt = -9223372036854775808 := by decide
  have hmax : Int64.maxValue.toInt = 9223372036854775807 := by decide
  simp only [toInt64?, hmin, hmax, ite_eq_right_iff, reduceCtorEq, imp_false] at h ⊢
  cases negative with
  | false =>
    rw [with_sign_plus] at h ⊢
    omega
  | true =>
    rw [with_sign_minus] at h ⊢
    omega

theorem digits_in_64 (negative : Bool) (cs : List Char) (acc : Nat) (read : Int64)
    (h : read.toInt = withSign negative acc) :
    digitsIn64 negative read cs =
      (digitsFrom acc cs).bind fun n => toInt64? (withSign negative n) := by
  induction cs generalizing acc read with
  | nil => exact ((to_int64_iff _ _).mpr h).symm
  | cons c cs ih =>
    rw [digitsIn64, digitsFrom]
    cases digit? c with
    | none => rfl
    | some d =>
      -- No digit behind makes room again, so giving up early gives nothing up.
      have hlost : ∀ m ≤ acc * 10 + d, toInt64? (withSign negative m) = none →
          ((digitsFrom (acc * 10 + d) cs).bind fun n => toInt64? (withSign negative n)) = none := by
        intro m hm hnone
        rw [Option.bind_eq_none_iff]
        intro n hn
        exact no_room negative m n (by have := digits_from_le cs _ n hn; omega) hnone
      rw [Option.bind_some, Option.bind_some, h, ← with_sign_tens]
      cases ht : toInt64? (withSign negative (acc * 10)) with
      | none => rw [Option.bind_none, hlost _ (by omega) ht]
      | some tens =>
        rw [Option.bind_some, (to_int64_iff _ _).mp ht, ← with_sign_add]
        cases hn : toInt64? (withSign negative (acc * 10 + d)) with
        | none => rw [Option.bind_none, hlost _ (Nat.le_refl _) hn]
        | some next => rw [Option.bind_some, ih _ next ((to_int64_iff _ _).mp hn)]

theorem numeral_in_64 (negative : Bool) (cs : List Char) :
    numeralIn64 negative cs = (nat? cs).bind fun n => toInt64? (withSign negative n) := by
  cases cs with
  | nil => rfl
  | cons c cs => exact digits_in_64 negative (c :: cs) 0 0 (by cases negative <;> rfl)

/-- Digit by digit in 64 bits, the same is read as without a bound. -/
theorem int64_by_digits (cs : List Char) : int64ByDigits? cs = int64? cs := by
  cases cs with
  | nil => rfl
  | cons c r =>
    by_cases hplus : c = '+'
    · subst hplus
      rw [int64ByDigits?, numeral_in_64, int64?, int?, Option.bind_map]
      rfl
    by_cases hminus : c = '-'
    · subst hminus
      rw [int64ByDigits?, numeral_in_64, int64?, int?, Option.bind_map]
      rfl
    · have hread : int64ByDigits? (c :: r) = numeralIn64 false (c :: r) := by
        simp [int64ByDigits?, hplus, hminus]
      have hint : int? (c :: r) = (nat? (c :: r)).map Int.ofNat := by
        simp [int?, hplus, hminus]
      rw [hread, numeral_in_64, int64?, hint, Option.bind_map]
      rfl

end Countersign.Text
