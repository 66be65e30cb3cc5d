import Countersign.Json.Printer
import Countersign.Json.Reader
import Countersign.Proofs.Text.Decimal

/-!
# Strings and integers read back

A printed string is read as its characters, those that are escaped included, and a
printed integer as the number that it was printed for, wherever the text does not
go on with more of the number.
-/

set_option autoImplicit false

namespace Countersign.Json

/-- The part that a character of a printed string is read as: the control characters without a letter
of their own are written as units. -/
def written (c : Char) : StringPart :=
  if c.toNat < 0x20 ∧ c ∉ ['\x08', '\x0c', '\n', '\r', '\t'] then .unit c.toNat else .char c

def partsOf (s : String) : List StringPart := s.toList.map written

theorem control_unit (n : Nat) (h : n < 0x20) :
    hexUnit? ['0', '0', Hex.digit (n / 16), Hex.digit (n % 16)] = some (n, []) := by
  have hall : ∀ i : Fin 0x20,
      hexUnit? ['0', '0', Hex.digit (i / 16), Hex.digit (i % 16)] = some (i.val, []) := by decide
  exact hall ⟨n, h⟩

theorem parts_unit (a b c d : Char) (u : Nat) (h : hexUnit? [a, b, c, d] = some (u, []))
    (r : List Char) :
    parts? ('\\' :: 'u' :: a :: b :: c :: d :: r) =
      (parts? r).map fun p => (.unit u :: p.1, p.2) := by
  rw [parts?, h]
  cases parts? r <;> rfl

theorem parts_letter (e c : Char) (hu : e ≠ 'u') (h : escaped? e = some c) (r : List Char) :
    parts? ('\\' :: e :: r) = (parts? r).map fun p => (.char c :: p.1, p.2) := by
  rw [parts?, h]
  · cases parts? r <;> rfl
  · simp [hu]

theorem parts_plain (c : Char) (hquote : c ≠ '"') (hslash : c ≠ '\\') (hlow : ¬ c.toNat < 0x20)
    (r : List Char) : parts? (c :: r) = (parts? r).map fun p => (.char c :: p.1, p.2) := by
  rw [parts?, if_neg (by simp [hlow, hslash])]
  · cases parts? r <;> rfl
  all_goals simp_all

theorem parts_escape (c : Char) (r : List Char) :
    parts? (escape c ++ r) = (parts? r).map fun p => (written c :: p.1, p.2) := by
  unfold escape
  split
  · next h => subst h; exact parts_letter '"' '"' (by decide) rfl r
  split
  · next h => subst h; exact parts_letter '\\' '\\' (by decide) rfl r
  split
  · next h => subst h; exact parts_letter 'b' '\x08' (by decide) rfl r
  split
  · next h => subst h; exact parts_letter 'f' '\x0c' (by decide) rfl r
  split
  · next h => subst h; exact parts_letter 'n' '\n' (by decide) rfl r
  split
  · next h => subst h; exact parts_letter 'r' '\r' (by decide) rfl r
  split
  · next h => subst h; exact parts_letter 't' '\t' (by decide) rfl r
  split
  · next hb hf hn hr ht hlow =>
    have hunit : written c = .unit c.toNat := if_pos ⟨hlow, by simp [hb, hf, hn, hr, ht]⟩
    rw [hunit]
    exact parts_unit _ _ _ _ _ (control_unit c.toNat hlow) r
  · next hquote hslash _ _ _ _ _ hlow =>
    have hchar : written c = .char c := if_neg fun h => hlow h.1
    rw [hchar]
    exact parts_plain c hquote hslash hlow r

theorem parts_quoted (cs r : List Char) :
    parts? (cs.flatMap escape ++ '"' :: r) = some (cs.map written, r) := by
  induction cs with
  | nil => rfl
  | cons c cs ih =>
    rw [List.flatMap_cons, List.append_assoc, parts_escape, ih]
    rfl

theorem characters_unit (u : Nat) (h : u < 0xd800) (r : List StringPart) :
    characters? (.unit u :: r) = (characters? r).map (Char.ofNat u :: ·) := by
  have hhigh : ¬ (0xd800 ≤ u ∧ u < 0xdc00) := by omega
  have hlow : ¬ (0xdc00 ≤ u ∧ u < 0xe000) := by omega
  rw [characters?.eq_def]
  simp only [if_neg hhigh, if_neg hlow]

theorem characters_written (cs : List Char) : characters? (cs.map written) = some cs := by
  induction cs with
  | nil => rfl
  | cons c cs ih =>
    rw [List.map_cons, written]
    split
    · rw [characters_unit c.toNat (by omega), ih, Char.ofNat_toNat]
      rfl
    · rw [characters?, ih]
      rfl

theorem text_of_parts (s : String) : textOfParts? (partsOf s) = some s := by
  rw [textOfParts?, partsOf, characters_written, Option.map_some, String.ofList_toList]

/-! ## Integers -/

def digitsOf (n : Nat) : List Nat := (Nat.toDigits 10 n).map fun c => c.toNat - 48

/-- A text that no digit, point or exponent begins, so that it does not go on with a number. -/
def Ends (r : List Char) : Prop :=
  ∀ c ∈ r.head?, Text.digit? c = none ∧ c ≠ '.' ∧ c ≠ 'e' ∧ c ≠ 'E'

theorem digits_run (ds r : List Char) (hds : ∀ c ∈ ds, c.isDigit = true)
    (hr : ∀ c ∈ r.head?, Text.digit? c = none) :
    digits (ds ++ r) = (ds.map fun c => c.toNat - 48, r) := by
  induction ds with
  | nil =>
    cases r with
    | nil => rfl
    | cons c r =>
      have hc : Text.digit? c = none := hr c rfl
      simp [digits, hc]
  | cons c ds ih =>
    have hc : Text.digit? c = some (c.toNat - 48) := by
      rw [Text.digit_eq, if_pos (hds c (by simp))]
    have hrest := ih fun x hx => hds x (by simp [hx])
    simp [digits, hc, hrest]

theorem of_digits_of (n : Nat) : ofDigits (digitsOf n) = n := by
  have hfold : ∀ (cs : List Char) (acc : Nat),
      (cs.map fun c => c.toNat - 48).foldl (fun n d => n * 10 + d) acc =
        Nat.ofDigitChars 10 cs acc := by
    intro cs
    induction cs with
    | nil => simp
    | cons c cs ih =>
      intro acc
      rw [List.map_cons, List.foldl_cons, ih, Nat.ofDigitChars_cons, Nat.mul_comm]
      rfl
  rw [ofDigits, digitsOf, hfold, Nat.ofDigitChars_ten_toDigits]

theorem digits_of_small (n : Nat) (h : n < 10) : digitsOf n = [n] := by
  rw [digitsOf, Nat.toDigits_of_lt_base h, List.map_singleton,
    Nat.toNat_digitChar_sub_48_of_lt_ten h]

theorem digits_of_large (n : Nat) (h : 10 ≤ n) : digitsOf n = digitsOf (n / 10) ++ [n % 10] := by
  rw [digitsOf, Nat.toDigits_of_base_le (by decide) h, List.map_append, List.map_singleton,
    Nat.toNat_digitChar_sub_48_of_lt_ten (by omega)]
  rfl

theorem digits_of_ne_nil (n : Nat) : digitsOf n ≠ [] := by
  rw [digitsOf, Ne, List.map_eq_nil_iff]
  exact Nat.toDigits_ne_nil

theorem digits_of_head (n : Nat) (h : (digitsOf n).head? = some 0) : n = 0 := by
  induction n using Nat.strongRecOn with
  | _ n ih =>
    by_cases hn : n < 10
    · rw [digits_of_small n hn] at h
      exact Option.some.inj h
    · obtain ⟨d, ds, hd⟩ := List.exists_cons_of_ne_nil (digits_of_ne_nil (n / 10))
      rw [digits_of_large n (by omega), hd] at h
      have hzero := ih (n / 10) (by omega) (by rw [hd]; exact h)
      omega

theorem digits_of_lead (n d : Nat) (r : List Nat) : digitsOf n ≠ 0 :: d :: r := by
  intro h
  have hn : n = 0 := digits_of_head n (by rw [h]; rfl)
  rw [hn, digits_of_small 0 (by decide)] at h
  cases h

theorem whole_part (n : Nat) (r : List Char) (hr : Ends r) :
    wholePart? (Nat.toDigits 10 n ++ r) = some (digitsOf n, r) := by
  have hdigits : ∀ c ∈ Nat.toDigits 10 n, c.isDigit = true :=
    fun _ hc => Nat.isDigit_of_mem_toDigits (by decide) (by decide) hc
  have hrun : digits (Nat.toDigits 10 n ++ r) = (digitsOf n, r) :=
    digits_run _ r hdigits fun c hc => (hr c hc).1
  have hsome : digits1? (Nat.toDigits 10 n ++ r) = some (digitsOf n, r) := by
    rw [digits1?, hrun]
    split
    · next h => exact absurd (Prod.ext_iff.mp h).1 (digits_of_ne_nil n)
    · next h =>
      cases h
      rfl
  rw [wholePart?, hsome]
  simp only [Option.bind_eq_bind, Option.bind_some]
  split
  · next h => exact absurd h (digits_of_lead n _ _)
  · rfl

theorem fraction_part (r : List Char) (hr : Ends r) : fractionPart? r = some (none, r) := by
  cases r with
  | nil => rfl
  | cons c r =>
    have hc := (hr c rfl).2.1
    simp [fractionPart?, hc]

theorem exponent_part (r : List Char) (hr : Ends r) : exponentPart? r = some (none, r) := by
  cases r with
  | nil => rfl
  | cons c r =>
    obtain ⟨_, _, hlower, hupper⟩ := hr c rfl
    simp [exponentPart?, hlower, hupper]

def whole (negative : Bool) (n : Nat) : Numeral := ⟨negative, digitsOf n, none, none⟩

theorem read_negative (n : Nat) (r : List Char) (hr : Ends r) :
    Numeral.read? ('-' :: (Nat.toDigits 10 n ++ r)) = some (whole true n, r) := by
  simp [Numeral.read?, whole_part n r hr, fraction_part r hr, exponent_part r hr, whole]

theorem read_natural (n : Nat) (r : List Char) (hr : Ends r) :
    Numeral.read? (Nat.toDigits 10 n ++ r) = some (whole false n, r) := by
  cases hcs : Nat.toDigits 10 n with
  | nil => exact absurd hcs Nat.toDigits_ne_nil
  | cons c cs =>
    have hdigit : c.isDigit = true :=
      Nat.isDigit_of_mem_toDigits (by decide) (by decide) (hcs ▸ List.mem_cons_self)
    have hsign : c ≠ '-' := by
      rintro rfl
      exact absurd hdigit (by decide)
    have hwhole := whole_part n r hr
    rw [hcs] at hwhole
    simp only [List.cons_append] at hwhole ⊢
    simp [Numeral.read?, hsign, hwhole, fraction_part r hr, exponent_part r hr, whole]

theorem value_natural (n : UInt64) : (whole false n.toNat).value? = some (.natural n) := by
  have hlt := n.toNat_lt
  simp only [Numeral.value?, whole, of_digits_of]
  rw [if_pos ⟨by decide, hlt⟩, UInt64.ofNat_toNat]

theorem value_negative (n : Int64) (h : n < 0) :
    (whole true n.toInt.natAbs).value? = some (.negative n) := by
  have hneg : n.toInt < 0 := Int64.lt_iff_toInt_lt.mp h
  have hlow := n.minValue_le_toInt
  have hmin : Int64.minValue.toInt = -9223372036854775808 := by decide
  have habs : -(n.toInt.natAbs : Int) = n.toInt := by omega
  simp only [Numeral.value?, whole, of_digits_of]
  rw [if_neg (by simp), if_pos ⟨trivial, by omega, by omega⟩, habs, Int64.ofInt_toInt]

end Countersign.Json
