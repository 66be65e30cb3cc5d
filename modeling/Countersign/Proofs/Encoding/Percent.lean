import Countersign.Encoding.Percent
import Countersign.Proofs.Text.Utf8

/-!
# Escapes and the bytes between them

A byte that neither begins an escape nor is a hexadecimal digit stands in no
escape, so the bytes before it and behind it can be read apart. Escapes with
digits of either case are read as the bytes they were written for. Where control
characters are escaped, whatever is written is visible ASCII and blanks.
-/

set_option autoImplicit false

namespace Countersign.Percent

theorem decode_plain (a : UInt8) (r : Bytes)
    (h : ∀ s t u, a = 0x25 → r = s :: t :: u → hexValue? s = none ∨ hexValue? t = none) :
    decode (a :: r) = a :: decode r := by
  generalize hx : a :: r = x
  fun_cases decode x with
  | case1 => cases hx
  | case2 s t u i j ht hs =>
    cases hx
    have hnone := h s t u rfl rfl
    simp [hs, ht] at hnone
  | case3 => cases hx; rfl
  | case4 => cases hx; rfl

theorem decode_separator (b : UInt8) (hb : b ≠ 0x25) (hhex : hexValue? b = none) (x y : Bytes) :
    decode (x ++ b :: y) = decode x ++ b :: decode y := by
  induction x using decode.induct with
  | case1 => exact decode_plain b y (fun _ _ _ hpercent => absurd hpercent hb)
  | case2 s t r u v ht hs ih => simp [decode, hs, ht, ih]
  | case3 s t r hnone ih =>
    have hplain : ∀ z, decode (0x25 :: s :: t :: z) = 0x25 :: decode (s :: t :: z) := by
      intro z
      apply decode_plain
      intro s' t' u _ hr
      cases hr
      cases hs : hexValue? s with
      | none => exact Or.inl rfl
      | some i =>
        cases ht : hexValue? t with
        | none => exact Or.inr rfl
        | some j => exact absurd ht (hnone i j hs)
    have hleft := hplain (r ++ b :: y)
    rw [List.cons_append, List.cons_append, List.cons_append, hleft, hplain r]
    exact congrArg _ ih
  | case4 a r hnone ih =>
    rw [decode_plain a r (fun s t u ha hr => absurd hr (hnone s t u ha)), List.cons_append,
      decode_plain a (r ++ b :: y), ih]
    · rfl
    intro s t u ha hr
    -- the byte stands within two bytes behind the percent sign
    cases r with
    | nil =>
      cases hr
      exact Or.inl hhex
    | cons c r =>
      cases r with
      | nil =>
        cases hr
        exact Or.inr hhex
      | cons d r => exact absurd rfl (hnone c d r ha)

theorem decode_eq_nil (x : Bytes) : decode x = [] ↔ x = [] := by
  fun_cases decode x <;> simp

theorem decode_free (x y : Bytes) (hx : 0x25 ∉ x) : decode (x ++ y) = x ++ decode y := by
  induction x with
  | nil => rfl
  | cons b x ih =>
    rw [List.mem_cons, not_or] at hx
    rw [List.cons_append, decode_plain b _ fun _ _ _ hb _ => absurd hb.symm hx.1, ih hx.2]
    rfl

/-! ## Escapes in either case -/

def IsDigit (n : Nat) (c : Char) : Prop := c = Hex.digit n ∨ c = Hex.upperDigit n

inductive Escapes : Bytes → List Char → Prop
  | nil : Escapes [] []
  | cons (b : UInt8) (h l : Char) {x : Bytes} {w : List Char} (hh : IsDigit (b.toNat / 16) h)
      (hl : IsDigit (b.toNat % 16) l) (rest : Escapes x w) :
      Escapes (b :: x) ('%' :: h :: l :: w)

theorem digit_read (n : Nat) (c : Char) (hn : n < 16) (h : IsDigit n c) :
    c.toNat < 0x80 ∧ c ≠ '+' ∧ hexValue? (UInt8.ofNat c.toNat) = some n := by
  have hlower : ∀ i : Fin 16, (Hex.digit i).toNat < 0x80 ∧ Hex.digit i ≠ '+' ∧
      hexValue? (UInt8.ofNat (Hex.digit i).toNat) = some i.val := by decide
  have hupper : ∀ i : Fin 16, (Hex.upperDigit i).toNat < 0x80 ∧ Hex.upperDigit i ≠ '+' ∧
      hexValue? (UInt8.ofNat (Hex.upperDigit i).toNat) = some i.val := by decide
  rcases h with rfl | rfl
  · exact hlower ⟨n, hn⟩
  · exact hupper ⟨n, hn⟩

theorem escapes_no_plus {x : Bytes} {w : List Char} (h : Escapes x w) : '+' ∉ w := by
  induction h with
  | nil => exact List.not_mem_nil
  | cons b h l hh hl _ ih =>
    have hb := b.toNat_lt
    obtain ⟨_, hhigh, _⟩ := digit_read _ h (by omega) hh
    obtain ⟨_, hlow, _⟩ := digit_read _ l (by omega) hl
    simp [hhigh.symm, hlow.symm, ih]

theorem decode_escapes {x : Bytes} {w : List Char} (h : Escapes x w) (y : Bytes) :
    decode (Utf8.encode w ++ y) = x ++ decode y := by
  induction h with
  | nil => rfl
  | @cons b h l x w hh hl _ ih =>
    have hb := b.toNat_lt
    obtain ⟨hhigh, _, hvalue⟩ := digit_read _ h (by omega) hh
    obtain ⟨hlow, _, hrest⟩ := digit_read _ l (by omega) hl
    have hbyte : UInt8.ofNat (b.toNat / 16 * 16 + b.toNat % 16) = b := by
      rw [Nat.div_add_mod', UInt8.ofNat_toNat]
    have hpercent : Utf8.encodeChar '%' = [0x25] := by decide
    rw [Utf8.encode_cons, Utf8.encode_cons, Utf8.encode_cons, hpercent,
      Utf8.encode_char_ascii h hhigh, Utf8.encode_char_ascii l hlow]
    change decode (0x25 :: _ :: _ :: (Utf8.encode w ++ y)) = _
    rw [decode, hvalue, hrest]
    change UInt8.ofNat (b.toNat / 16 * 16 + b.toNat % 16) :: decode (Utf8.encode w ++ y) = _
    rw [hbyte, ih, List.cons_append]

/-! ## What is written -/

def IsPrintable (c : Char) : Prop := 0x20 ≤ c.toNat ∧ c.toNat < 0x7f

instance (c : Char) : Decidable (IsPrintable c) := inferInstanceAs (Decidable (_ ∧ _))

theorem upper_digit_printable (n : Nat) (h : n < 16) : IsPrintable (Hex.upperDigit n) := by
  have hall : ∀ i : Fin 16, IsPrintable (Hex.upperDigit i) := by decide
  exact hall ⟨n, h⟩

theorem escape_printable (b : UInt8) (c : Char) (h : c ∈ escape b) : IsPrintable c := by
  have hb := b.toNat_lt
  simp only [escape, List.mem_cons, List.not_mem_nil, or_false] at h
  rcases h with rfl | rfl | rfl
  · decide
  · exact upper_digit_printable _ (by omega)
  · exact upper_digit_printable _ (by omega)

theorem encode_printable (b : Bytes) (c : Char) (h : c ∈ encode isControl b) : IsPrintable c := by
  obtain ⟨x, _, hc⟩ := List.mem_flatMap.mp h
  by_cases hx : (0x80 ≤ x || isControl x) = true
  · rw [if_pos hx] at hc
    exact escape_printable x c hc
  · rw [if_neg hx] at hc
    obtain rfl := List.mem_singleton.mp hc
    simp only [isControl, Bool.or_eq_true, decide_eq_true_eq, not_or, UInt8.le_iff_toNat_le,
      UInt8.lt_iff_toNat_lt, ← UInt8.toNat_inj] at hx
    have hn : (Char.ofNat x.toNat).toNat = x.toNat := by
      have hv : x.toNat.isValidChar := Or.inl (Nat.lt_trans x.toNat_lt (by decide))
      rw [Char.ofNat, dif_pos hv]
      rfl
    have hlow : ¬ x.toNat < 0x20 := hx.2.1
    have hhigh : ¬ 0x80 ≤ x.toNat := hx.1
    have hdelete : x.toNat ≠ 0x7f := hx.2.2
    rw [IsPrintable, hn]
    omega

end Countersign.Percent
