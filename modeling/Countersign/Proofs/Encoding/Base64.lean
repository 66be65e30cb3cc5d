import Countersign.Encoding.Base64

/-!
# Reading what Base64 writes

In a lawful spelling the sixty-four characters are told apart and the filling
character is none of them. Then writing bytes and reading them back gives the
bytes, group by group; the last group is the only one that can be short. Both
spellings in use are lawful. The other way round, every text that can be read is
the one that writing its bytes gives: a group stands for its bits alone, and
unused bits that are not zero and a wrong filling are refused.
-/

set_option autoImplicit false

namespace Countersign.Base64

structure Lawful (s : Spelling) : Prop where
  value_char : ∀ n < 64, s.value? (s.char n) = some n
  value_fill : s.value? '=' = none

theorem standard_lawful : Lawful .standard where
  value_char := by decide
  value_fill := by decide

theorem url_safe_lawful : Lawful .urlSafe where
  value_char := by decide
  value_fill := by decide

theorem byte_of_toNat (a : UInt8) (n : Nat) (h : n = a.toNat) : UInt8.ofNat n = a := by
  rw [h, UInt8.ofNat_toNat]

variable {s : Spelling}

theorem char_ne_fill (hs : Lawful s) (n : Nat) (hn : n < 64) : s.char n ≠ '=' := by
  intro h
  have hv := hs.value_char n hn
  rw [h, hs.value_fill] at hv
  cases hv

theorem tail_one (hs : Lawful s) (a : UInt8) : decodeTail? s (encode s [a]) = some [a] := by
  have ha := a.toNat_lt
  have h₁ := hs.value_char (a.toNat / 4) (by omega)
  have h₂ := hs.value_char (a.toNat % 4 * 16) (by omega)
  have hbits : a.toNat % 4 * 16 % 16 = 0 := by omega
  have hbyte : UInt8.ofNat (a.toNat / 4 * 4 + a.toNat % 4 * 16 / 16) = a :=
    byte_of_toNat a _ (by omega)
  simp only [encode, decodeTail?, h₁, h₂, Option.bind_eq_bind, Option.bind_some, if_true, hbits,
    hbyte]

theorem tail_two (hs : Lawful s) (a b : UInt8) :
    decodeTail? s (encode s [a, b]) = some [a, b] := by
  have ha := a.toNat_lt
  have hb := b.toNat_lt
  have h₁ := hs.value_char (a.toNat / 4) (by omega)
  have h₂ := hs.value_char (a.toNat % 4 * 16 + b.toNat / 16) (by omega)
  have h₃ := hs.value_char (b.toNat % 16 * 4) (by omega)
  have hfill := char_ne_fill hs (b.toNat % 16 * 4) (by omega)
  have hbits : b.toNat % 16 * 4 % 4 = 0 := by omega
  have hfirst : UInt8.ofNat (a.toNat / 4 * 4 + (a.toNat % 4 * 16 + b.toNat / 16) / 16) = a :=
    byte_of_toNat a _ (by omega)
  have hsecond : UInt8.ofNat
      ((a.toNat % 4 * 16 + b.toNat / 16) % 16 * 16 + b.toNat % 16 * 4 / 4) = b :=
    byte_of_toNat b _ (by omega)
  have hlong : s.char (b.toNat % 16 * 4) :: s.pad 1 ≠ s.pad 2 := by
    cases hp : s.padded <;> simp [Spelling.pad, hp, hfill]
  simp only [encode, decodeTail?, h₁, h₂, h₃, Option.bind_eq_bind, Option.bind_some, if_neg hlong,
    if_true, hbits, hfirst, hsecond]

theorem decode_tail (hs : Lawful s) (b : Bytes) (h : b.length = 1 ∨ b.length = 2) :
    decode? s (encode s b) = decodeTail? s (encode s b) := by
  match b, h with
  | [a], _ => cases hp : s.padded <;> simp [encode, decode?, Spelling.pad, hp, hs.value_fill]
  | [a, b], _ => cases hp : s.padded <;> simp [encode, decode?, Spelling.pad, hp, hs.value_fill]

theorem decode_encode (hs : Lawful s) (b : Bytes) : decode? s (encode s b) = some b := by
  fun_induction encode s b with
  | case1 => rfl
  | case2 a => exact (decode_tail hs [a] (Or.inl rfl)).trans (tail_one hs a)
  | case3 a b => exact (decode_tail hs [a, b] (Or.inr rfl)).trans (tail_two hs a b)
  | case4 a b c r ih =>
    have ha := a.toNat_lt
    have hb := b.toNat_lt
    have hc := c.toNat_lt
    have h₁ := hs.value_char (a.toNat / 4) (by omega)
    have h₂ := hs.value_char (a.toNat % 4 * 16 + b.toNat / 16) (by omega)
    have h₃ := hs.value_char (b.toNat % 16 * 4 + c.toNat / 64) (by omega)
    have h₄ := hs.value_char (c.toNat % 64) (by omega)
    have hfirst : UInt8.ofNat (a.toNat / 4 * 4 + (a.toNat % 4 * 16 + b.toNat / 16) / 16) = a :=
      byte_of_toNat a _ (by omega)
    have hsecond : UInt8.ofNat ((a.toNat % 4 * 16 + b.toNat / 16) % 16 * 16 +
        (b.toNat % 16 * 4 + c.toNat / 64) / 4) = b := byte_of_toNat b _ (by omega)
    have hthird : UInt8.ofNat ((b.toNat % 16 * 4 + c.toNat / 64) % 4 * 64 + c.toNat % 64) = c :=
      byte_of_toNat c _ (by omega)
    simp only [decode?, h₁, h₂, h₃, h₄, ih, Option.bind_eq_bind, Option.bind_some, hfirst, hsecond,
      hthird, Option.pure_def]

theorem encode_chars (b : Bytes) : ∀ c ∈ encode s b, c = '=' ∨ ∃ n < 64, c = s.char n := by
  have fill : ∀ k, ∀ c ∈ s.pad k, c = '=' := by
    intro k c hc
    cases hp : s.padded <;> simp [Spelling.pad, hp] at hc
    exact hc.2
  fun_induction encode s b with
  | case1 => simp
  | case2 a =>
    have ha := a.toNat_lt
    intro c hc
    simp only [List.mem_cons] at hc
    rcases hc with rfl | rfl | hc
    · exact Or.inr ⟨_, by omega, rfl⟩
    · exact Or.inr ⟨_, by omega, rfl⟩
    · exact Or.inl (fill 2 c hc)
  | case3 a b =>
    have ha := a.toNat_lt
    have hb := b.toNat_lt
    intro c hc
    simp only [List.mem_cons] at hc
    rcases hc with rfl | rfl | rfl | hc
    · exact Or.inr ⟨_, by omega, rfl⟩
    · exact Or.inr ⟨_, by omega, rfl⟩
    · exact Or.inr ⟨_, by omega, rfl⟩
    · exact Or.inl (fill 1 c hc)
  | case4 a b c r ih =>
    have ha := a.toNat_lt
    have hb := b.toNat_lt
    have hc := c.toNat_lt
    intro d hd
    simp only [List.mem_cons] at hd
    rcases hd with rfl | rfl | rfl | rfl | hd
    · exact Or.inr ⟨_, by omega, rfl⟩
    · exact Or.inr ⟨_, by omega, rfl⟩
    · exact Or.inr ⟨_, by omega, rfl⟩
    · exact Or.inr ⟨_, by omega, rfl⟩
    · exact ih d hd

theorem char_of_value (c : Char) (n : Nat) (h : s.value? c = some n) :
    n < 64 ∧ s.char n = c := by
  have code : ∀ m, m = c.toNat → Char.ofNat m = c := by
    rintro m rfl
    exact Char.ofNat_toNat c
  simp only [Spelling.value?, Bool.and_eq_true, decide_eq_true_eq, Char.le_def,
    UInt32.le_iff_toNat_le] at h
  change (if 65 ≤ c.toNat ∧ c.toNat ≤ 90 then some (c.toNat - 65)
    else if 97 ≤ c.toNat ∧ c.toNat ≤ 122 then some (c.toNat - 71)
    else if 48 ≤ c.toNat ∧ c.toNat ≤ 57 then some (c.toNat + 4)
    else if c = s.char62 then some 62 else if c = s.char63 then some 63 else none) = some n at h
  unfold Spelling.char
  split at h
  · obtain rfl := Option.some.inj h
    rw [if_pos (by omega)]
    exact ⟨by omega, code _ (by omega)⟩
  split at h
  · obtain rfl := Option.some.inj h
    rw [if_neg (by omega), if_pos (by omega)]
    exact ⟨by omega, code _ (by omega)⟩
  split at h
  · obtain rfl := Option.some.inj h
    rw [if_neg (by omega), if_neg (by omega), if_pos (by omega)]
    exact ⟨by omega, code _ (by omega)⟩
  split at h
  · next hchar =>
    obtain rfl := Option.some.inj h
    exact ⟨by omega, hchar.symm⟩
  split at h
  · next hchar =>
    obtain rfl := Option.some.inj h
    exact ⟨by omega, hchar.symm⟩
  · cases h

theorem encode_one (x y : Nat) (hx : x < 64) (hy : y < 64) (hbits : y % 16 = 0) :
    encode s [UInt8.ofNat (x * 4 + y / 16)] = s.char x :: s.char y :: s.pad 2 := by
  have ha := UInt8.toNat_ofNat_of_lt' (show x * 4 + y / 16 < 256 by omega)
  have h₁ : (x * 4 + y / 16) / 4 = x := by omega
  have h₂ : (x * 4 + y / 16) % 4 * 16 = y := by omega
  rw [encode, ha, h₁, h₂]

theorem encode_two (x y z : Nat) (hx : x < 64) (hy : y < 64) (hz : z < 64) (hbits : z % 4 = 0) :
    encode s [UInt8.ofNat (x * 4 + y / 16), UInt8.ofNat (y % 16 * 16 + z / 4)] =
      s.char x :: s.char y :: s.char z :: s.pad 1 := by
  have ha := UInt8.toNat_ofNat_of_lt' (show x * 4 + y / 16 < 256 by omega)
  have hb := UInt8.toNat_ofNat_of_lt' (show y % 16 * 16 + z / 4 < 256 by omega)
  have h₁ : (x * 4 + y / 16) / 4 = x := by omega
  have h₂ : (x * 4 + y / 16) % 4 * 16 + (y % 16 * 16 + z / 4) / 16 = y := by omega
  have h₃ : (y % 16 * 16 + z / 4) % 16 * 4 = z := by omega
  rw [encode, ha, hb, h₁, h₂, h₃]

theorem encode_three (x y z w : Nat) (hx : x < 64) (hy : y < 64) (hz : z < 64) (hw : w < 64)
    (r : Bytes) :
    encode s (UInt8.ofNat (x * 4 + y / 16) :: UInt8.ofNat (y % 16 * 16 + z / 4) ::
      UInt8.ofNat (z % 4 * 64 + w) :: r) =
      s.char x :: s.char y :: s.char z :: s.char w :: encode s r := by
  have ha := UInt8.toNat_ofNat_of_lt' (show x * 4 + y / 16 < 256 by omega)
  have hb := UInt8.toNat_ofNat_of_lt' (show y % 16 * 16 + z / 4 < 256 by omega)
  have hc := UInt8.toNat_ofNat_of_lt' (show z % 4 * 64 + w < 256 by omega)
  have h₁ : (x * 4 + y / 16) / 4 = x := by omega
  have h₂ : (x * 4 + y / 16) % 4 * 16 + (y % 16 * 16 + z / 4) / 16 = y := by omega
  have h₃ : (y % 16 * 16 + z / 4) % 16 * 4 + (z % 4 * 64 + w) / 64 = z := by omega
  have h₄ : (z % 4 * 64 + w) % 64 = w := by omega
  rw [encode, ha, hb, hc, h₁, h₂, h₃, h₄]

theorem encode_of_tail (cs : List Char) (b : Bytes) (h : decodeTail? s cs = some b) :
    encode s b = cs := by
  match cs with
  | [] => cases h
  | [_] => cases h
  | c₁ :: c₂ :: r =>
    obtain ⟨x, h₁, hrest⟩ := Option.bind_eq_some_iff.mp h
    obtain ⟨y, h₂, hshort⟩ := Option.bind_eq_some_iff.mp hrest
    obtain ⟨hx, hc₁⟩ := char_of_value c₁ x h₁
    obtain ⟨hy, hc₂⟩ := char_of_value c₂ y h₂
    by_cases hr : r = s.pad 2
    · rw [if_pos hr] at hshort
      obtain ⟨hbits, hb⟩ := Option.ite_none_right_eq_some.mp hshort
      rw [← Option.some.inj hb, encode_one x y hx hy hbits, hc₁, hc₂, hr]
    · rw [if_neg hr] at hshort
      match r with
      | [] => cases hshort
      | c₃ :: r =>
        obtain ⟨z, h₃, hlong⟩ := Option.bind_eq_some_iff.mp hshort
        obtain ⟨hz, hc₃⟩ := char_of_value c₃ z h₃
        obtain ⟨hfill, hlong⟩ := Option.ite_none_right_eq_some.mp hlong
        obtain ⟨hbits, hb⟩ := Option.ite_none_right_eq_some.mp hlong
        rw [← Option.some.inj hb, encode_two x y z hx hy hz hbits, hc₁, hc₂, hc₃, hfill]

/-- Nothing is read but what is written, in any spelling. -/
theorem encode_of_decode (cs : List Char) (b : Bytes) (h : decode? s cs = some b) :
    encode s b = cs := by
  fun_induction decode? s cs generalizing b with
  | case1 =>
    obtain rfl := Option.some.inj h
    rfl
  | case2 c₁ c₂ c₃ c₄ r x y z w h₄ h₃ h₂ h₁ ih =>
    obtain ⟨hx, hc₁⟩ := char_of_value c₁ x h₁
    obtain ⟨hy, hc₂⟩ := char_of_value c₂ y h₂
    obtain ⟨hz, hc₃⟩ := char_of_value c₃ z h₃
    obtain ⟨hw, hc₄⟩ := char_of_value c₄ w h₄
    obtain ⟨rest, hrest, hb⟩ := Option.bind_eq_some_iff.mp h
    rw [← Option.some.inj hb, encode_three x y z w hx hy hz hw, ih rest hrest, hc₁, hc₂, hc₃, hc₄]
  | case3 => exact encode_of_tail _ b h
  | case4 => exact encode_of_tail _ b h

theorem decode_iff (hs : Lawful s) (cs : List Char) (b : Bytes) :
    decode? s cs = some b ↔ encode s b = cs :=
  ⟨encode_of_decode cs b, fun h => h ▸ decode_encode hs b⟩

end Countersign.Base64
