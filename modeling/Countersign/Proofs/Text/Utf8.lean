import Countersign.Text.Utf8

/-!
# Lossy reading

A byte of ASCII continues no character. So the bytes before it are read as if
they were alone, damaged ones included, and the bytes behind it start afresh.
The bytes of a text are read back as that text: each width of a character is a
range of lead bytes and a sum of the bits behind them.
-/

set_option autoImplicit false

namespace Countersign.Utf8

theorem encode_injective (cs ds : List Char) (h : encode cs = encode ds) : cs = ds := by
  have hbytes : (String.ofList cs).toByteArray = (String.ofList ds).toByteArray := by
    rw [String.toByteArray_ofList, String.toByteArray_ofList]
    exact congrArg List.toByteArray h
  exact String.ofList_inj.mp (String.toByteArray_inj.mp hbytes)

theorem first_length (a : UInt8) (x : Bytes) : (first a x).2 ≤ x.length := by
  fun_cases first a x <;> simp

theorem first_ascii (a b : UInt8) (x y : Bytes) (hb : b < 0x80) :
    first a (x ++ b :: y) = first a x := by
  have hlow : ¬ 0x80 ≤ b := UInt8.not_le.mpr hb
  have hcontinuation : isContinuation b = false := by simp [isContinuation, hlow]
  have hthree : secondOfThree a b = false := by
    have hlower : ¬ 0xa0 ≤ b := fun h => hlow (UInt8.le_trans (by decide) h)
    unfold secondOfThree
    split <;> simp [hlow, hlower]
  have hfour : secondOfFour a b = false := by
    have hlower : ¬ 0x90 ≤ b := fun h => hlow (UInt8.le_trans (by decide) h)
    unfold secondOfFour
    split <;> simp [hlow, hlower]
  match x with
  | [] => simp [first, hcontinuation, hthree, hfour]
  | [c] => simp [first, hcontinuation]
  | [c, d] => simp [first, hcontinuation]
  | c :: d :: e :: r => simp [first]

theorem decode_from_ascii (b : UInt8) (hb : b < 0x80) (x y : Bytes) :
    ∀ skip, skip ≤ x.length →
      decodeFrom skip (x ++ b :: y) = decodeFrom skip x ++ Char.ofNat b.toNat :: decodeLossy y := by
  induction x with
  | nil =>
    intro skip hskip
    cases skip with
    | zero => simp [decodeFrom, first, hb, decodeLossy]
    | succ n => simp at hskip
  | cons a x ih =>
    intro skip hskip
    cases skip with
    | zero =>
      rw [List.cons_append, decodeFrom, decodeFrom, first_ascii a b x y hb, ih _ (first_length a x)]
      rfl
    | succ n => exact ih n (Nat.le_of_succ_le_succ hskip)

theorem decode_ascii (b : UInt8) (hb : b < 0x80) (x y : Bytes) :
    decodeLossy (x ++ b :: y) = decodeLossy x ++ Char.ofNat b.toNat :: decodeLossy y :=
  decode_from_ascii b hb x y 0 (Nat.zero_le _)

theorem decode_eq_nil (x : Bytes) : decodeLossy x = [] ↔ x = [] := by
  cases x <;> simp [decodeLossy, decodeFrom]

/-! ## The bytes of a text -/

theorem char_range (c : Char) : c.toNat < 0xd800 ∨ 0xdfff < c.toNat ∧ c.toNat < 0x110000 := c.valid

theorem toNat_byte (n : Nat) (h : n < 256) : (UInt8.ofNat n).toNat = n := UInt8.toNat_ofNat_of_lt' h

theorem encode_char_ascii (c : Char) (h : c.toNat < 0x80) :
    encodeChar c = [UInt8.ofNat c.toNat] := by
  have hone : c.val.toNat ≤ 0x7f := Nat.le_of_lt_succ h
  rw [encodeChar, String.utf8EncodeChar, if_pos hone]
  rfl

theorem mem_encode_char (c : Char) (b : UInt8) (hb : b ∈ encodeChar c) :
    b.toNat = c.toNat ∨ 0x80 ≤ b.toNat := by
  by_cases hascii : c.toNat < 0x80
  · rw [encode_char_ascii c hascii, List.mem_singleton] at hb
    rw [hb, toNat_byte _ (by omega)]
    exact Or.inl rfl
  · have hone : ¬ c.val.toNat ≤ 0x7f := fun h => hascii (Nat.lt_succ_of_le h)
    have hhigh : ∀ n, 0x80 ≤ n → n < 256 → 0x80 ≤ (UInt8.ofNat n).toNat := by
      intro n hlow hn
      rwa [toNat_byte n hn]
    right
    rw [encodeChar, String.utf8EncodeChar, if_neg hone] at hb
    split at hb
    · simp only [List.mem_cons, List.not_mem_nil, or_false] at hb
      rcases hb with rfl | rfl <;> exact hhigh _ (by omega) (by omega)
    split at hb
    · simp only [List.mem_cons, List.not_mem_nil, or_false] at hb
      rcases hb with rfl | rfl | rfl <;> exact hhigh _ (by omega) (by omega)
    · simp only [List.mem_cons, List.not_mem_nil, or_false] at hb
      rcases hb with rfl | rfl | rfl | rfl <;> exact hhigh _ (by omega) (by omega)

theorem continuation_byte (n : Nat) : isContinuation (UInt8.ofNat (n % 64 + 0x80)) = true := by
  have hbyte := toNat_byte (n % 64 + 0x80) (by omega)
  simp only [isContinuation, Bool.and_eq_true, decide_eq_true_eq, UInt8.le_iff_toNat_le, hbyte,
    UInt8.reduceToNat]
  omega

theorem bits_byte (n : Nat) : bits (UInt8.ofNat (n % 64 + 0x80)) = n % 64 := by
  rw [bits, toNat_byte _ (by omega)]
  omega

theorem decode_two (a b : UInt8) (r : Bytes) (hlow : 0xc2 ≤ a.toNat) (hhigh : a.toNat ≤ 0xdf)
    (hb : isContinuation b = true) :
    decodeLossy (a :: b :: r) = Char.ofNat (a.toNat % 32 * 64 + bits b) :: decodeLossy r := by
  have hascii : ¬ a < 0x80 := Nat.not_lt.mpr (Nat.le_trans (by decide) hlow)
  have htwo : 0xc2 ≤ a ∧ a ≤ 0xdf := ⟨hlow, hhigh⟩
  simp [decodeLossy, decodeFrom, first, hascii, htwo, hb]

theorem decode_three (a b c : UInt8) (r : Bytes) (hlow : 0xe0 ≤ a.toNat) (hhigh : a.toNat ≤ 0xef)
    (hb : secondOfThree a b = true) (hc : isContinuation c = true) :
    decodeLossy (a :: b :: c :: r) =
      Char.ofNat (a.toNat % 16 * 4096 + bits b * 64 + bits c) :: decodeLossy r := by
  have hascii : ¬ a < 0x80 := Nat.not_lt.mpr (Nat.le_trans (by decide) hlow)
  have htwo : ¬ a ≤ 0xdf := Nat.not_le.mpr hlow
  have hthree : 0xe0 ≤ a ∧ a ≤ 0xef := ⟨hlow, hhigh⟩
  simp [decodeLossy, decodeFrom, first, hascii, htwo, hthree, hb, hc]

theorem decode_four (a b c d : UInt8) (r : Bytes) (hlow : 0xf0 ≤ a.toNat) (hhigh : a.toNat ≤ 0xf4)
    (hb : secondOfFour a b = true) (hc : isContinuation c = true) (hd : isContinuation d = true) :
    decodeLossy (a :: b :: c :: d :: r) =
      Char.ofNat (a.toNat % 8 * 262144 + bits b * 4096 + bits c * 64 + bits d) ::
        decodeLossy r := by
  have hascii : ¬ a < 0x80 := Nat.not_lt.mpr (Nat.le_trans (by decide) hlow)
  have htwo : ¬ a ≤ 0xdf := Nat.not_le.mpr (Nat.le_trans (by decide) hlow)
  have hthree : ¬ a ≤ 0xef := Nat.not_le.mpr hlow
  have hfour : 0xf0 ≤ a ∧ a ≤ 0xf4 := ⟨hlow, hhigh⟩
  simp [decodeLossy, decodeFrom, first, hascii, htwo, hthree, hfour, hb, hc, hd]

theorem second_of_three (c : Char) (hlow : 0x7ff < c.toNat) (hhigh : c.toNat ≤ 0xffff) :
    secondOfThree (UInt8.ofNat (c.toNat / 4096 % 16 + 0xe0))
      (UInt8.ofNat (c.toNat / 64 % 64 + 0x80)) = true := by
  have hrange := char_range c
  have hlead := toNat_byte (c.toNat / 4096 % 16 + 0xe0) (by omega)
  have hsecond := toNat_byte (c.toNat / 64 % 64 + 0x80) (by omega)
  simp only [secondOfThree, Bool.and_eq_true, decide_eq_true_eq, UInt8.le_iff_toNat_le,
    ← UInt8.toNat_inj, apply_ite UInt8.toNat, hlead, hsecond, UInt8.reduceToNat]
  constructor <;> split <;> omega

theorem second_of_four (c : Char) (hlow : 0xffff < c.toNat) :
    secondOfFour (UInt8.ofNat (c.toNat / 262144 % 8 + 0xf0))
      (UInt8.ofNat (c.toNat / 4096 % 64 + 0x80)) = true := by
  have hrange := char_range c
  have hlead := toNat_byte (c.toNat / 262144 % 8 + 0xf0) (by omega)
  have hsecond := toNat_byte (c.toNat / 4096 % 64 + 0x80) (by omega)
  simp only [secondOfFour, Bool.and_eq_true, decide_eq_true_eq, UInt8.le_iff_toNat_le,
    ← UInt8.toNat_inj, apply_ite UInt8.toNat, hlead, hsecond, UInt8.reduceToNat]
  constructor <;> split <;> omega

theorem decode_encode_ascii (c : Char) (r : Bytes) (h : c.toNat < 0x80) :
    decodeLossy (encodeChar c ++ r) = c :: decodeLossy r := by
  have hbyte := toNat_byte c.toNat (by omega)
  have hascii : UInt8.ofNat c.toNat < 0x80 := by
    rw [UInt8.lt_iff_toNat_lt, hbyte]
    exact h
  have hread := decode_ascii (UInt8.ofNat c.toNat) hascii [] r
  rw [hbyte, Char.ofNat_toNat] at hread
  rw [encode_char_ascii c h]
  exact hread

theorem decode_encode_two (c : Char) (r : Bytes) (hlow : 0x7f < c.toNat) (hhigh : c.toNat ≤ 0x7ff) :
    decodeLossy (encodeChar c ++ r) = c :: decodeLossy r := by
  have hone : ¬ c.val.toNat ≤ 0x7f := Nat.not_le.mpr hlow
  have htwo : c.val.toNat ≤ 0x7ff := hhigh
  have hlead := toNat_byte (c.toNat / 64 % 32 + 0xc0) (by omega)
  have hsum : (c.toNat / 64 % 32 + 0xc0) % 32 * 64 + c.toNat % 64 = c.toNat := by omega
  rw [encodeChar, String.utf8EncodeChar, if_neg hone, if_pos htwo]
  have hread := decode_two (UInt8.ofNat (c.toNat / 64 % 32 + 0xc0)) _ r (by omega) (by omega)
    (continuation_byte c.toNat)
  rwa [hlead, bits_byte, hsum, Char.ofNat_toNat] at hread

theorem decode_encode_three (c : Char) (r : Bytes) (hlow : 0x7ff < c.toNat)
    (hhigh : c.toNat ≤ 0xffff) : decodeLossy (encodeChar c ++ r) = c :: decodeLossy r := by
  have hone : ¬ c.val.toNat ≤ 0x7f := Nat.not_le.mpr (Nat.lt_trans (by decide) hlow)
  have htwo : ¬ c.val.toNat ≤ 0x7ff := Nat.not_le.mpr hlow
  have hthree : c.val.toNat ≤ 0xffff := hhigh
  have hlead := toNat_byte (c.toNat / 4096 % 16 + 0xe0) (by omega)
  have hsum : (c.toNat / 4096 % 16 + 0xe0) % 16 * 4096 + c.toNat / 64 % 64 * 64 +
      c.toNat % 64 = c.toNat := by omega
  rw [encodeChar, String.utf8EncodeChar, if_neg hone, if_neg htwo, if_pos hthree]
  have hread := decode_three (UInt8.ofNat (c.toNat / 4096 % 16 + 0xe0)) _ _ r (by omega) (by omega)
    (second_of_three c hlow hhigh) (continuation_byte c.toNat)
  rwa [hlead, bits_byte, bits_byte, hsum, Char.ofNat_toNat] at hread

theorem decode_encode_four (c : Char) (r : Bytes) (hlow : 0xffff < c.toNat) :
    decodeLossy (encodeChar c ++ r) = c :: decodeLossy r := by
  have hone : ¬ c.val.toNat ≤ 0x7f := Nat.not_le.mpr (Nat.lt_trans (by decide) hlow)
  have htwo : ¬ c.val.toNat ≤ 0x7ff := Nat.not_le.mpr (Nat.lt_trans (by decide) hlow)
  have hthree : ¬ c.val.toNat ≤ 0xffff := Nat.not_le.mpr hlow
  have hrange := char_range c
  have hlead := toNat_byte (c.toNat / 262144 % 8 + 0xf0) (by omega)
  have hsum : (c.toNat / 262144 % 8 + 0xf0) % 8 * 262144 + c.toNat / 4096 % 64 * 4096 +
      c.toNat / 64 % 64 * 64 + c.toNat % 64 = c.toNat := by omega
  rw [encodeChar, String.utf8EncodeChar, if_neg hone, if_neg htwo, if_neg hthree]
  have hread := decode_four (UInt8.ofNat (c.toNat / 262144 % 8 + 0xf0)) _ _ _ r (by omega)
    (by omega) (second_of_four c hlow) (continuation_byte (c.toNat / 64))
    (continuation_byte c.toNat)
  rwa [hlead, bits_byte, bits_byte, bits_byte, hsum, Char.ofNat_toNat] at hread

theorem decode_encode_char (c : Char) (r : Bytes) :
    decodeLossy (encodeChar c ++ r) = c :: decodeLossy r := by
  by_cases hone : c.toNat ≤ 0x7f
  · exact decode_encode_ascii c r (Nat.lt_succ_of_le hone)
  by_cases htwo : c.toNat ≤ 0x7ff
  · exact decode_encode_two c r (Nat.not_le.mp hone) htwo
  by_cases hthree : c.toNat ≤ 0xffff
  · exact decode_encode_three c r (Nat.not_le.mp htwo) hthree
  · exact decode_encode_four c r (Nat.not_le.mp hthree)

theorem decode_encode (cs : List Char) : decodeLossy (encode cs) = cs := by
  induction cs with
  | nil => rfl
  | cons c cs ih => rw [encode_cons, decode_encode_char, ih]

end Countersign.Utf8
