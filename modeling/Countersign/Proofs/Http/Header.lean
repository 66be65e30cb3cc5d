import Countersign.Http.Request
import Countersign.Proofs.Text.Utf8

/-!
# Header texts and header sections

A text of tabs and visible ASCII survives the way through a header value, and no
other text comes out of one. A section that was given a value for a name has that
value alone under the name, and under its other names the values that it had.
-/

set_option autoImplicit false

namespace Countersign.Http

def IsReadableChar (c : Char) : Prop := c = '\t' ∨ (0x20 ≤ c.toNat ∧ c.toNat < 0x7f)

instance (c : Char) : Decidable (IsReadableChar c) := inferInstanceAs (Decidable (_ ∨ _))

def IsReadableText (s : String) : Prop := ∀ c ∈ s.toList, IsReadableChar c

instance (s : String) : Decidable (IsReadableText s) :=
  decidable_of_iff (s.toList.all fun c => decide (IsReadableChar c)) (by simp [IsReadableText])

theorem readable_lt (c : Char) (h : IsReadableChar c) : c.toNat < 0x7f := by
  rcases h with rfl | h
  · decide
  · exact h.2

theorem encode_readable (c : Char) (h : IsReadableChar c) :
    Utf8.encodeChar c = [UInt8.ofNat c.toNat] := by
  have hlt := readable_lt c h
  exact Utf8.encode_char_ascii c (by omega)

theorem readable_byte (c : Char) (h : IsReadableChar c) :
    isReadable (UInt8.ofNat c.toNat) = true := by
  rcases h with rfl | ⟨hlo, hhi⟩
  · decide
  · have hb := Utf8.toNat_byte c.toNat (by omega)
    simp [isReadable, UInt8.le_iff_toNat_le, UInt8.lt_iff_toNat_lt, hb, hlo, hhi]

theorem value_of_readable (b : UInt8) (h : isReadable b = true) : isValueByte b = true := by
  simp only [isReadable, Bool.or_eq_true, Bool.and_eq_true, decide_eq_true_eq] at h
  rcases h with h | ⟨hlo, hhi⟩
  · simp [isValueByte, h]
  · have hne : b ≠ 0x7f := by
      rintro rfl
      exact absurd hhi (by decide)
    simp [isValueByte, hlo, hne]

theorem of_string_readable (s : String) (h : IsReadableText s) :
    Utf8.ofString s = s.toList.map fun c => UInt8.ofNat c.toNat := by
  have hl : ∀ cs : List Char, (∀ c ∈ cs, IsReadableChar c) →
      Utf8.encode cs = cs.map fun c => UInt8.ofNat c.toNat := by
    intro cs hcs
    induction cs with
    | nil => rfl
    | cons c cs ih =>
      rw [Utf8.encode_cons, encode_readable c (hcs c (by simp)), ih fun d hd => hcs d (by simp [hd])]
      rfl
  exact hl s.toList h

theorem char_of_readable (c : Char) (h : IsReadableChar c) :
    Char.ofNat (UInt8.ofNat c.toNat).toNat = c := by
  have hlt := readable_lt c h
  rw [Utf8.toNat_byte c.toNat (by omega), Char.ofNat_toNat]

theorem readable_round_trip (s : String) (h : IsReadableText s) :
    ∃ v, HeaderValue.ofString? s = some v ∧ v.text? = some s := by
  have hbytes := of_string_readable s h
  have hread : (Utf8.ofString s).all isReadable = true := by
    rw [hbytes, List.all_eq_true]
    intro b hb
    obtain ⟨c, hc, rfl⟩ := List.mem_map.mp hb
    exact readable_byte c (h c hc)
  have hvalue : (Utf8.ofString s).all isValueByte = true := by
    rw [List.all_eq_true] at hread ⊢
    exact fun b hb => value_of_readable b (hread b hb)
  refine ⟨⟨Utf8.ofString s, hvalue⟩, by simp [HeaderValue.ofString?, hvalue], ?_⟩
  have hback : (Utf8.ofString s).map (fun b => Char.ofNat b.toNat) = s.toList := by
    rw [hbytes, List.map_map]
    exact (List.map_congr_left fun c hc => char_of_readable c (h c hc)).trans (List.map_id _)
  simp only [HeaderValue.text?, hread, if_true, hback, String.ofList_toList]

theorem readable_of_text (v : HeaderValue) (s : String) (h : v.text? = some s) :
    IsReadableText s := by
  by_cases hall : v.bytes.all isReadable = true
  · simp only [HeaderValue.text?, hall, if_true, Option.some.injEq] at h
    intro c hc
    rw [← h, String.toList_ofList] at hc
    obtain ⟨b, hb, rfl⟩ := List.mem_map.mp hc
    have hr := List.all_eq_true.mp hall b hb
    simp only [isReadable, Bool.or_eq_true, Bool.and_eq_true, decide_eq_true_eq,
      UInt8.le_iff_toNat_le, UInt8.lt_iff_toNat_lt] at hr
    have hlt : b.toNat < 0x7f := by
      rcases hr with rfl | hr
      · decide
      · exact hr.2
    have hn : (Char.ofNat b.toNat).toNat = b.toNat := by
      have hv : b.toNat.isValidChar := Or.inl (by omega)
      rw [Char.ofNat, dif_pos hv]
      rfl
    rcases hr with rfl | hr
    · exact Or.inl rfl
    · exact Or.inr (by rw [hn]; exact hr)
  · simp [HeaderValue.text?, hall] at h

namespace Headers

def values (h : Headers) (name : HeaderName) : List HeaderValue :=
  (h.filter fun p => p.1 = name).map (·.2)

theorem get_eq_head (h : Headers) (name : HeaderName) : h.get? name = (h.values name).head? := by
  induction h with
  | nil => rfl
  | cons p h ih =>
    obtain ⟨n, v⟩ := p
    simp only [get?, values] at ih
    by_cases hn : n = name
    · simp [get?, values, hn]
    · have hb : (name == n) = false := beq_false_of_ne (Ne.symm hn)
      simp [get?, values, List.lookup_cons, hn, hb, ih]

theorem values_append (h g : Headers) (name : HeaderName) :
    values (h ++ g) name = h.values name ++ values g name := by
  simp [values]

theorem values_remove_self (h : Headers) (name : HeaderName) : (h.remove name).values name = [] := by
  simp [values, remove]

theorem values_remove_ne (h : Headers) (name other : HeaderName) (hne : other ≠ name) :
    (h.remove name).values other = h.values other := by
  have hkept : ∀ p : HeaderName × HeaderValue,
      (decide (p.1 = other) && decide (p.1 ≠ name)) = decide (p.1 = other) := by
    intro p
    by_cases hp : p.1 = other <;> simp [hp, hne]
  rw [values, remove, List.filter_filter]
  simp only [hkept]
  rfl

theorem values_insert_self (h : Headers) (name : HeaderName) (v : HeaderValue) :
    (h.insert name v).values name = [v] := by
  rw [insert, append, values_append, values_remove_self]
  simp [values]

theorem values_insert_ne (h : Headers) (name other : HeaderName) (v : HeaderValue)
    (hne : other ≠ name) : (h.insert name v).values other = h.values other := by
  rw [insert, append, values_append, values_remove_ne h name other hne]
  simp [values, hne.symm]

theorem values_absent (h : Headers) (name : HeaderName) (hn : name ∉ h.map (·.1)) :
    h.values name = [] := by
  rw [values, List.map_eq_nil_iff, List.filter_eq_nil_iff]
  rintro p hp hname
  exact hn (List.mem_map.mpr ⟨p, hp, by simpa using hname⟩)

theorem values_single (h : Headers) (name : HeaderName) (v : HeaderValue)
    (hd : (h.map (·.1)).Nodup) (hm : (name, v) ∈ h) : h.values name = [v] := by
  induction h with
  | nil => cases hm
  | cons p h ih =>
    rw [List.map_cons, List.nodup_cons] at hd
    rcases List.mem_cons.mp hm with rfl | hm
    · have hrest := values_absent h name hd.1
      simp only [values] at hrest
      simp [values, hrest]
    · have hne : p.1 ≠ name := by
        rintro rfl
        exact hd.1 (List.mem_map.mpr ⟨_, hm, rfl⟩)
      have hrest := ih hd.2 hm
      simp only [values] at hrest
      simp [values, hne, hrest]

theorem values_written_other (written h : Headers) (other : HeaderName)
    (hn : other ∉ written.map (·.1)) :
    (written.foldl (fun h p => h.insert p.1 p.2) h).values other = h.values other := by
  induction written generalizing h with
  | nil => rfl
  | cons p written ih =>
    rw [List.map_cons, List.mem_cons, not_or] at hn
    rw [List.foldl_cons, ih _ hn.2]
    exact values_insert_ne h p.1 other p.2 hn.1

/-- Of what is written under different names, each name has its value and no other. -/
theorem values_written (written h : Headers) (name : HeaderName) (v : HeaderValue)
    (hd : (written.map (·.1)).Nodup) (hm : (name, v) ∈ written) :
    (written.foldl (fun h p => h.insert p.1 p.2) h).values name = [v] := by
  induction written generalizing h with
  | nil => cases hm
  | cons p written ih =>
    rw [List.map_cons, List.nodup_cons] at hd
    rw [List.foldl_cons]
    rcases List.mem_cons.mp hm with rfl | hm
    · rw [values_written_other written _ name hd.1, values_insert_self]
    · exact ih _ hd.2 hm

/-- No header text holds the character between id and nonce in the keys of a ledger. -/
theorem no_separator_of_text (h : Headers) (name : HeaderName) (s : String)
    (hs : h.text? name = some s) : '\x1f' ∉ s.toList := by
  obtain ⟨value, _, hvalue⟩ := Option.bind_eq_some_iff.mp hs
  intro hm
  exact absurd (readable_of_text value s hvalue _ hm) (by decide)

end Headers

end Countersign.Http
