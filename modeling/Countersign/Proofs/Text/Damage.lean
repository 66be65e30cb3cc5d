import Countersign.Proofs.Text.Utf8

/-!
# What lossy reading loses

Every character but the replacement one was read from its own bytes. So bytes that
are read without a replacement character can be told from all others, and bytes that
are read with one cannot: any damage in its place is read the same.
-/

set_option autoImplicit false

namespace Countersign.Utf8

/-! ## The bytes of a character that was read -/

theorem toNat_char (n : Nat) (h : n < 0xd800 ∨ 0xdfff < n ∧ n < 0x110000) :
    (Char.ofNat n).toNat = n := by
  rw [Char.ofNat, dif_pos h]
  rfl

theorem byte_eq (a : UInt8) (n : Nat) (h : n = a.toNat) : UInt8.ofNat n = a := by
  rw [h, UInt8.ofNat_toNat]

theorem continuation_range (b : UInt8) (h : isContinuation b = true) :
    0x80 ≤ b.toNat ∧ b.toNat ≤ 0xbf := by
  simpa only [isContinuation, Bool.and_eq_true, decide_eq_true_eq, UInt8.le_iff_toNat_le,
    UInt8.reduceToNat] using h

theorem bits_eq (b : UInt8) (hlow : 0x80 ≤ b.toNat) (hhigh : b.toNat ≤ 0xbf) :
    bits b = b.toNat - 0x80 := by
  unfold bits
  omega

theorem encode_two (a b : UInt8) (hlow : 0xc2 ≤ a.toNat) (hhigh : a.toNat ≤ 0xdf)
    (hb : isContinuation b = true) :
    encodeChar (Char.ofNat (a.toNat % 32 * 64 + bits b)) = [a, b] := by
  have hcontinuation := continuation_range b hb
  have hbits := bits_eq b hcontinuation.1 hcontinuation.2
  have hchar := toNat_char (a.toNat % 32 * 64 + bits b) (by omega)
  generalize Char.ofNat (a.toNat % 32 * 64 + bits b) = c at hchar
  have hone : ¬ c.val.toNat ≤ 0x7f := by change ¬ c.toNat ≤ 0x7f; omega
  have htwo : c.val.toNat ≤ 0x7ff := by change c.toNat ≤ 0x7ff; omega
  have hlead : UInt8.ofNat (c.toNat / 64 % 32 + 0xc0) = a := byte_eq a _ (by omega)
  have hlast : UInt8.ofNat (c.toNat % 64 + 0x80) = b := byte_eq b _ (by omega)
  rw [encodeChar, String.utf8EncodeChar, if_neg hone, if_pos htwo]
  show [UInt8.ofNat (c.toNat / 64 % 32 + 0xc0), UInt8.ofNat (c.toNat % 64 + 0x80)] = [a, b]
  rw [hlead, hlast]

theorem second_of_three_range (a b : UInt8) (h : secondOfThree a b = true) :
    0x80 ≤ b.toNat ∧ b.toNat ≤ 0xbf ∧ (a.toNat = 0xe0 → 0xa0 ≤ b.toNat) ∧
      (a.toNat = 0xed → b.toNat ≤ 0x9f) := by
  simp only [secondOfThree, Bool.and_eq_true, decide_eq_true_eq, UInt8.le_iff_toNat_le,
    ← UInt8.toNat_inj, apply_ite UInt8.toNat, UInt8.reduceToNat] at h
  obtain ⟨hlow, hhigh⟩ := h
  split at hlow <;> split at hhigh <;> omega

theorem second_of_four_range (a b : UInt8) (h : secondOfFour a b = true) :
    0x80 ≤ b.toNat ∧ b.toNat ≤ 0xbf ∧ (a.toNat = 0xf0 → 0x90 ≤ b.toNat) ∧
      (a.toNat = 0xf4 → b.toNat ≤ 0x8f) := by
  simp only [secondOfFour, Bool.and_eq_true, decide_eq_true_eq, UInt8.le_iff_toNat_le,
    ← UInt8.toNat_inj, apply_ite UInt8.toNat, UInt8.reduceToNat] at h
  obtain ⟨hlow, hhigh⟩ := h
  split at hlow <;> split at hhigh <;> omega

theorem encode_three (a b c : UInt8) (hlow : 0xe0 ≤ a.toNat) (hhigh : a.toNat ≤ 0xef)
    (hb : secondOfThree a b = true) (hc : isContinuation c = true) :
    encodeChar (Char.ofNat (a.toNat % 16 * 4096 + bits b * 64 + bits c)) = [a, b, c] := by
  have hsecond := second_of_three_range a b hb
  have hthird := continuation_range c hc
  have hbits := bits_eq b hsecond.1 hsecond.2.1
  have hbits' := bits_eq c hthird.1 hthird.2
  have hchar := toNat_char (a.toNat % 16 * 4096 + bits b * 64 + bits c) (by omega)
  generalize Char.ofNat (a.toNat % 16 * 4096 + bits b * 64 + bits c) = d at hchar
  have hone : ¬ d.val.toNat ≤ 0x7f := by change ¬ d.toNat ≤ 0x7f; omega
  have htwo : ¬ d.val.toNat ≤ 0x7ff := by change ¬ d.toNat ≤ 0x7ff; omega
  have hthree : d.val.toNat ≤ 0xffff := by change d.toNat ≤ 0xffff; omega
  have hlead : UInt8.ofNat (d.toNat / 4096 % 16 + 0xe0) = a := byte_eq a _ (by omega)
  have hmiddle : UInt8.ofNat (d.toNat / 64 % 64 + 0x80) = b := byte_eq b _ (by omega)
  have hlast : UInt8.ofNat (d.toNat % 64 + 0x80) = c := byte_eq c _ (by omega)
  rw [encodeChar, String.utf8EncodeChar, if_neg hone, if_neg htwo, if_pos hthree]
  show [UInt8.ofNat (d.toNat / 4096 % 16 + 0xe0), UInt8.ofNat (d.toNat / 64 % 64 + 0x80),
    UInt8.ofNat (d.toNat % 64 + 0x80)] = [a, b, c]
  rw [hlead, hmiddle, hlast]

theorem encode_four (a b c d : UInt8) (hlow : 0xf0 ≤ a.toNat) (hhigh : a.toNat ≤ 0xf4)
    (hb : secondOfFour a b = true) (hc : isContinuation c = true) (hd : isContinuation d = true) :
    encodeChar (Char.ofNat (a.toNat % 8 * 262144 + bits b * 4096 + bits c * 64 + bits d)) =
      [a, b, c, d] := by
  have hsecond := second_of_four_range a b hb
  have hthird := continuation_range c hc
  have hfourth := continuation_range d hd
  have hbits := bits_eq b hsecond.1 hsecond.2.1
  have hbits' := bits_eq c hthird.1 hthird.2
  have hbits'' := bits_eq d hfourth.1 hfourth.2
  have hchar := toNat_char (a.toNat % 8 * 262144 + bits b * 4096 + bits c * 64 + bits d) (by omega)
  generalize Char.ofNat (a.toNat % 8 * 262144 + bits b * 4096 + bits c * 64 + bits d) = e at hchar
  have hone : ¬ e.val.toNat ≤ 0x7f := by change ¬ e.toNat ≤ 0x7f; omega
  have htwo : ¬ e.val.toNat ≤ 0x7ff := by change ¬ e.toNat ≤ 0x7ff; omega
  have hthree : ¬ e.val.toNat ≤ 0xffff := by change ¬ e.toNat ≤ 0xffff; omega
  have hlead : UInt8.ofNat (e.toNat / 262144 % 8 + 0xf0) = a := byte_eq a _ (by omega)
  have hupper : UInt8.ofNat (e.toNat / 4096 % 64 + 0x80) = b := byte_eq b _ (by omega)
  have hlower : UInt8.ofNat (e.toNat / 64 % 64 + 0x80) = c := byte_eq c _ (by omega)
  have hlast : UInt8.ofNat (e.toNat % 64 + 0x80) = d := byte_eq d _ (by omega)
  rw [encodeChar, String.utf8EncodeChar, if_neg hone, if_neg htwo, if_neg hthree]
  show [UInt8.ofNat (e.toNat / 262144 % 8 + 0xf0), UInt8.ofNat (e.toNat / 4096 % 64 + 0x80),
    UInt8.ofNat (e.toNat / 64 % 64 + 0x80), UInt8.ofNat (e.toNat % 64 + 0x80)] = [a, b, c, d]
  rw [hlead, hupper, hlower, hlast]

theorem encode_first (a : UInt8) (r : Bytes) :
    (first a r).1 = replacement ∨ encodeChar (first a r).1 = a :: r.take (first a r).2 := by
  fun_cases first a r
  case case1 h =>
    have hlow : a.toNat < 0x80 := h
    have hchar := toNat_char a.toNat (by omega)
    refine Or.inr ?_
    show encodeChar (Char.ofNat a.toNat) = a :: r.take 0
    rw [encode_char_ascii _ (by omega), hchar, UInt8.ofNat_toNat, List.take_zero]
  case case2 _ hlead b tail hb =>
    simp only [Bool.and_eq_true, decide_eq_true_eq] at hlead
    exact Or.inr (encode_two a b hlead.1 hlead.2 hb)
  case case5 _ _ hlead b hb c tail hc =>
    simp only [Bool.and_eq_true, decide_eq_true_eq] at hlead
    exact Or.inr (encode_three a b c hlead.1 hlead.2 hb hc)
  case case10 _ _ _ hlead b hb c hc d tail hd =>
    simp only [Bool.and_eq_true, decide_eq_true_eq] at hlead
    exact Or.inr (encode_four a b c d hlead.1 hlead.2 hb hc hd)
  all_goals exact Or.inl rfl

/-! ## Whole texts -/

theorem encode_decode_from (b : Bytes) : ∀ skip, skip ≤ b.length →
    replacement ∉ decodeFrom skip b → encode (decodeFrom skip b) = b.drop skip := by
  induction b with
  | nil =>
    intro skip hskip _
    have hzero : skip = 0 := Nat.le_zero.mp hskip
    subst hzero
    rfl
  | cons a r ih =>
    intro skip hskip h
    cases skip with
    | succ n => exact ih n (Nat.le_of_succ_le_succ hskip) h
    | zero =>
      rw [decodeFrom, List.mem_cons, not_or] at h
      have hfirst := (encode_first a r).resolve_left (Ne.symm h.1)
      have hrest := ih _ (first_length a r) h.2
      rw [decodeFrom, encode_cons, hfirst, hrest, List.cons_append, List.take_append_drop,
        List.drop_zero]

theorem encode_decode (b : Bytes) (h : replacement ∉ decodeLossy b) : encode (decodeLossy b) = b :=
  encode_decode_from b 0 (Nat.zero_le _) h

theorem decode_encode_append (cs : List Char) (r : Bytes) :
    decodeLossy (encode cs ++ r) = cs ++ decodeLossy r := by
  induction cs with
  | nil => rfl
  | cons c cs ih => rw [encode_cons, List.append_assoc, decode_encode_char, ih, List.cons_append]

theorem decode_damaged (r : Bytes) : decodeLossy (0xff :: r) = replacement :: decodeLossy r := by
  simp [decodeLossy, decodeFrom, first]

/-- Only the bytes of a text without a replacement character are the only ones that are read as they
are: for the rest the replacement character itself may have been sent, or a damaged byte for it. -/
theorem read_alone_iff (b : Bytes) :
    (∀ other, decodeLossy other = decodeLossy b → other = b) ↔
      ∃ cs, b = encode cs ∧ replacement ∉ cs := by
  constructor
  · intro h
    have hmended : encode (decodeLossy b) = b := h _ (decode_encode _)
    refine ⟨decodeLossy b, hmended.symm, ?_⟩
    intro hmem
    obtain ⟨xs, ys, hsplit⟩ := List.append_of_mem hmem
    have hdamaged := h (encode xs ++ 0xff :: encode ys) (by
      rw [decode_encode_append, decode_damaged, decode_encode, hsplit])
    rw [← hmended, hsplit, encode_append, encode_cons] at hdamaged
    have hhead := List.append_cancel_left hdamaged
    rw [show encodeChar replacement = [0xef, 0xbf, 0xbd] by decide] at hhead
    exact absurd (List.cons.inj hhead).1 (by decide)
  · rintro ⟨cs, rfl, hcs⟩ other h
    rw [decode_encode] at h
    rw [← encode_decode other (h ▸ hcs), h]

end Countersign.Utf8
