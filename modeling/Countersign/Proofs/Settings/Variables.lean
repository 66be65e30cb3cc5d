import Countersign.Proofs.Settings.Fields
import Countersign.Proofs.Text.Decimal
import Mathlib.Data.List.TakeWhile

/-!
# Settings in variables

A variable for a setting spells part and name in capitals. Its text is taken for a
truth value or a number where it looks like one, whatever the setting is. Read as a
text again, such a value has the spelling that all equal values have, and an integer
past the signed ones has gone through a double.
-/

set_option autoImplicit false

namespace Countersign

namespace Environment

def respelt (t : String) : String :=
  if Text.eqIgnoreAsciiCase t.toList "true".toList then "true"
  else if Text.eqIgnoreAsciiCase t.toList "false".toList then "false"
  else
    match Text.int64? t.toList with
    | some n => Text.ofInt64 n
    | none => ((Decimal.double? t.toList).map Decimal.plainText).getD t

theorem value_as_text (t : String) : (value t).toText? = some (respelt t) := by
  rw [value, respelt]
  split
  · rfl
  split
  · rfl
  cases Text.int64? t.toList with
  | some n => rfl
  | none => cases Decimal.double? t.toList <;> rfl

end Environment

namespace Settings

/-- The texts that hold a value. No text holds a list of texts. -/
inductive Kind.Holds : (k : Kind) → String → k.Carrier → Prop where
  | text (t : String) : Holds .text t t
  | optionalText (t : String) : Holds .optionalText t (some t)
  | number (t : String) (n : UInt64) (h : Text.Denotes t.toList n.toNat) : Holds .number t n
  | flag (t : String) (b : Bool) (h : Text.eqIgnoreAsciiCase t.toList (toString b).toList = true) :
      Holds .flag t b

/-- What becomes of a value in a variable: only texts and integers of 64 bits may change. -/
def Kind.taken : (k : Kind) → k.Carrier → k.Carrier
  | .text, t => Environment.respelt t
  | .optionalText, t => t.map Environment.respelt
  | .number, n =>
    if n.toNat < 9223372036854775808 then n else (Decimal.nearest n.toNat 0).round.toUInt64
  | .flag, b => b
  | .texts, ts => ts

/-! ## Names of variables -/

def Field.key (f : Field) : String := f.part.title ++ "." ++ f.name

def Field.spelt (f : Field) : List Char :=
  (f.part.title ++ "__" ++ f.name).toList.map Text.upperAscii

def Field.variableName (stem : String) (f : Field) : String :=
  stem ++ "_" ++ String.ofList f.spelt

theorem dotted_spelt (f : Field) :
    String.ofList (Environment.dotted (f.spelt.map Text.lowerAscii)) = f.key := by
  cases f <;> decide +kernel

theorem path_of_key (f : Field) :
    Setting.path f.key = [.name f.part.title, .name f.name] := by
  cases f <;> decide +kernel

theorem key_of_variable (stem : String) (f : Field) :
    Environment.key? stem (f.variableName stem) = some f.key := by
  have hname : (f.variableName stem).toList.map Text.lowerAscii =
      (stem.toList ++ ['_']).map Text.lowerAscii ++ f.spelt.map Text.lowerAscii := by
    simp [Field.variableName]
  have hstart : ((stem.toList ++ ['_']).map Text.lowerAscii).isPrefixOf
      ((stem.toList ++ ['_']).map Text.lowerAscii ++ f.spelt.map Text.lowerAscii) = true :=
    List.isPrefixOf_iff_prefix.mpr (List.prefix_append _ _)
  rw [Environment.key?, hname, if_pos hstart, List.drop_left, dotted_spelt]

/-! ## Values of variables -/

theorem numeral_lower (c : Char) (h : Text.IsNumeral c) : Text.lowerAscii c = c := by
  rcases h with h | rfl | rfl
  · have hd := Char.isDigit_iff_toNat.mp h
    change 48 ≤ c.toNat ∧ c.toNat ≤ 57 at hd
    have hbelow : ¬ 'A'.val ≤ c.val := by
      rw [UInt32.le_iff_toNat_le]
      change ¬ 65 ≤ c.toNat
      omega
    exact dif_neg fun h => hbelow h.1
  · decide
  · decide

theorem numeral_no_word (t w : List Char) (n : Int) (h : Text.Denotes t n)
    (hw : w.all (fun c => Text.IsNumeral (Text.lowerAscii c)) = false) :
    Text.eqIgnoreAsciiCase t w = false := by
  have hchars := Text.int_chars t n ((Text.int_iff t n).mpr h)
  have hlower : t.map Text.lowerAscii = t := by
    rw [List.map_congr_left fun c hc => numeral_lower c (hchars c hc), List.map_id']
  rw [Text.eqIgnoreAsciiCase, hlower, beq_eq_false_iff_ne]
  intro heq
  rw [List.all_eq_false] at hw
  obtain ⟨c, hc, hletter⟩ := hw
  have hmem : Text.lowerAscii c ∈ t := heq ▸ List.mem_map_of_mem hc
  exact hletter (decide_eq_true (hchars _ hmem))

theorem digits_no_sign (ds : List Char) (h : Text.IsDigits ds) :
    ∃ c r, ds = c :: r ∧ c ≠ '+' ∧ c ≠ '-' := by
  obtain ⟨c, r, rfl⟩ := List.exists_cons_of_ne_nil h.1
  have hc := h.2 c List.mem_cons_self
  refine ⟨c, r, rfl, ?_, ?_⟩
  · rintro rfl
    exact absurd hc (by decide)
  · rintro rfl
    exact absurd hc (by decide)

theorem run_value_digits (ds : List Char) : Decimal.runValue ds = Nat.ofDigitChars 10 ds 0 := by
  simp only [Decimal.runValue, Nat.ofDigitChars, Nat.mul_comm, Char.reduceToNat]

theorem unsigned_digits (ds : List Char) (h : Text.IsDigits ds) :
    Decimal.unsigned? ds = some (Decimal.nearest (Nat.ofDigitChars 10 ds 0) 0) := by
  have hdigits : ∀ c ∈ ds, c.isDigit = true := fun c hc => (Text.digit_range c).mp (h.2 c hc)
  have hrun : Decimal.digitRun ds = (ds, []) := by
    rw [Decimal.digitRun, List.takeWhile_eq_self_iff.mpr hdigits,
      List.dropWhile_eq_nil_iff.mpr hdigits]
  rw [Decimal.unsigned?, hrun]
  simp only [h.1, List.append_nil, and_true, if_false, Decimal.exponent?, Option.map_some,
    run_value_digits]
  rfl

theorem double_denoted (t : List Char) (n : Nat) (hn : 0 < n) (h : Text.Denotes t n) :
    Decimal.double? t = some (Decimal.nearest n 0) := by
  generalize hm : (n : Int) = m at h
  cases h with
  | unsigned ds hds =>
    obtain ⟨c, r, rfl, hplus, hminus⟩ := digits_no_sign _ hds
    obtain rfl : n = _ := Int.ofNat.inj hm
    simp [Decimal.double?, unsigned_digits _ hds, hplus, hminus]
  | plus ds hds =>
    obtain rfl : n = _ := Int.ofNat.inj hm
    simp [Decimal.double?, unsigned_digits ds hds]
  | minus ds hds => omega

theorem value_numeral (t : String) (n : UInt64) (h : Text.Denotes t.toList n.toNat) :
    (Environment.value t).toUInt64? = some (Kind.taken .number n) := by
  have htrue := numeral_no_word t.toList "true".toList n.toNat h (by decide)
  have hfalse := numeral_no_word t.toList "false".toList n.toNat h (by decide)
  have hint : Text.int64? t.toList = Text.toInt64? n.toNat := by
    rw [Text.int64?, (Text.int_iff _ _).mpr h, Option.bind_some]
  rw [Environment.value]
  simp only [htrue, hfalse, Bool.false_eq_true, if_false, hint]
  have hmin : Int64.minValue.toInt = -9223372036854775808 := by decide
  have hmax : Int64.maxValue.toInt = 9223372036854775807 := by decide
  -- a numeral without room among the signed integers is taken for a double
  cases ha : Text.toInt64? n.toNat with
  | some a =>
    have htoInt := (Text.to_int64_iff _ _).mp ha
    have hle := a.toInt_le
    have hnonneg : 0 ≤ a := by
      rw [Int64.le_iff_toInt_le, htoInt]
      exact Int.natCast_nonneg _
    have hsame : a.toUInt64 = n := by
      apply UInt64.toNat_inj.mp
      rw [Int64.toNat_toUInt64_of_le hnonneg, Int64.toNatClampNeg, htoInt, Int.toNat_natCast]
    rw [Kind.taken, if_pos (by omega)]
    simp only [Setting.toUInt64?, hnonneg, if_true, hsame]
  | none =>
    have hlarge : ¬ n.toNat < 9223372036854775808 := by
      rw [Text.toInt64?, ite_eq_right_iff] at ha
      intro hlt
      cases ha (by omega)
    rw [Kind.taken, if_neg hlarge, double_denoted t.toList n.toNat (by omega) h]
    rfl

theorem same_case (t u w : List Char) (h : Text.eqIgnoreAsciiCase t u = true) :
    Text.eqIgnoreAsciiCase t w = Text.eqIgnoreAsciiCase u w := by
  rw [Text.eqIgnoreAsciiCase, beq_iff_eq] at h
  rw [Text.eqIgnoreAsciiCase, h, Text.eqIgnoreAsciiCase]

theorem value_word (t : String) (b : Bool)
    (h : Text.eqIgnoreAsciiCase t.toList (toString b).toList = true) :
    Environment.value t = .bool b := by
  cases b with
  | true => rw [Environment.value, show "true" = toString true from rfl, if_pos h]
  | false =>
    have hother : Text.eqIgnoreAsciiCase t.toList "true".toList = false :=
      (same_case t.toList _ _ h).trans (by decide)
    simp only [Environment.value, hother, Bool.false_eq_true, if_false]
    rw [show "false" = toString false from rfl, if_pos h]

theorem optional_of_text (x : Setting) (s : String) (h : x.toText? = some s) :
    x.toOptionalText? = some (some s) := by
  cases x with
  | absent => cases h
  | _ => exact congrArg (Option.map some) h

theorem value_read (k : Kind) (t : String) (v : k.Carrier) (h : k.Holds t v) :
    k.read (Environment.value t) = some (k.taken v) := by
  cases h with
  | text t => exact Environment.value_as_text t
  | optionalText t => exact optional_of_text _ _ (Environment.value_as_text t)
  | number t n h => exact value_numeral t n h
  | flag t b h => rw [value_word t b h]; rfl

theorem word_of_flag (t : String) (b : Bool)
    (h : Text.eqIgnoreAsciiCase t.toList (toString b).toList = true) :
    Setting.word? t = some b := by
  simp only [Setting.word?, same_case t.toList _ _ h]
  cases b <;> decide

theorem word_of_numeral (t : String) (n : Int) (h : Text.Denotes t.toList n) :
    Setting.word? t = none := by
  have hletter : ∀ w ∈ ["true", "on", "yes", "false", "off", "no"],
      w.toList.all (fun c => Text.IsNumeral (Text.lowerAscii c)) = false := by
    decide
  have hword : ∀ w ∈ ["true", "on", "yes", "false", "off", "no"],
      ¬ Text.eqIgnoreAsciiCase t.toList w.toList = true :=
    fun w hw => Bool.eq_false_iff.mp (numeral_no_word t.toList w.toList n h (hletter w hw))
  rw [Setting.word?, if_neg, if_neg]
  · rw [List.any_eq_true]
    rintro ⟨w, hw, h⟩
    exact hword w (List.mem_append_right ["true", "on", "yes"] hw) h
  · rw [List.any_eq_true]
    rintro ⟨w, hw, h⟩
    exact hword w (List.mem_append_left ["false", "off", "no"] hw) h

theorem uint64_denoted (t : List Char) (n : UInt64) (h : Text.Denotes t n.toNat)
    (hsign : t.head? ≠ some '-') : Text.uint64? t = some n := by
  have hsize : n.toNat < UInt64.size := n.toNat_lt
  generalize hm : (n.toNat : Int) = m at h
  cases h with
  | unsigned ds hds =>
    have hn : n.toNat = _ := Int.ofNat.inj hm
    obtain ⟨c, r, rfl, hplus, _⟩ := digits_no_sign _ hds
    have hread := (Text.nat_iff (c :: r) n.toNat).mpr ⟨hds, hn.symm⟩
    simp [Text.uint64?, hplus, hread, hsize]
  | plus ds hds =>
    have hn : n.toNat = _ := Int.ofNat.inj hm
    have hread := (Text.nat_iff ds n.toNat).mpr ⟨hds, hn.symm⟩
    simp [Text.uint64?, hread, hsize]
  | minus ds hds => exact absurd rfl hsign

/-- In a file, the same text is left as it is and gives each setting the value that it holds; only
zero behind a minus sign is no unsigned integer there. -/
theorem text_read (k : Kind) (t : String) (v : k.Carrier) (h : k.Holds t v)
    (hsign : t.toList.head? ≠ some '-') : k.read (.text t) = some v := by
  cases h with
  | text t => rfl
  | optionalText t => rfl
  | number t n h =>
    change Setting.toUInt64? (.text t) = some n
    rw [Setting.toUInt64?, word_of_numeral t _ h]
    exact uint64_denoted t.toList n h hsign
  | flag t b h =>
    have hword := word_of_flag t b h
    change Setting.toBool? (.text t) = some b
    have hone : t ≠ "1" := by rintro rfl; cases b <;> cases hword
    have hzero : t ≠ "0" := by rintro rfl; cases b <;> cases hword
    rw [Setting.toBool?, if_neg hone, if_neg hzero, hword]

/-! ## Variables for settings -/

structure Assignment where
  field : Field
  text : String
  value : field.kind.Carrier
  holds : field.kind.Holds text value

namespace Assignment

def asVariable (stem : String) (a : Assignment) : String × String :=
  (a.field.variableName stem, a.text)

def entry (a : Assignment) : String × Setting := (a.field.key, Environment.value a.text)

end Assignment

end Settings

end Countersign
