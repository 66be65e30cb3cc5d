import Countersign.Proofs.Policy.HeaderNames
import Countersign.Proofs.Text.Blank
import Mathlib.Data.List.DropRight

/-!
# Which prefixes make names

The hyphens at the end of a prefix are dropped; what is left makes names exactly if
it consists of token characters and the longest of the names is not too long. The
five endings are no endings of each other, so that a name tells the beginning it was
made with: two prefixes have all of their names in common or none of them.
-/

set_option autoImplicit false

namespace Countersign

namespace Http

theorem upper_range (c : Char) : c.isUpper = true ↔ 65 ≤ c.toNat ∧ c.toNat ≤ 90 := by
  have hbounds : c.isUpper = true ↔ c.val ≥ 65 ∧ c.val ≤ 90 := decide_eq_true_iff
  rw [hbounds, ge_iff_le, UInt32.le_iff_toNat_le, UInt32.le_iff_toNat_le]
  exact Iff.rfl

theorem upper_letter (c : Char) (h : c.isUpper = true) : c ∈ "ABCDEFGHIJKLMNOPQRSTUVWXYZ".toList := by
  obtain ⟨hlow, hhigh⟩ := (upper_range c).mp h
  have hletters : ∀ n ∈ List.range' 65 26, Char.ofNat n ∈ "ABCDEFGHIJKLMNOPQRSTUVWXYZ".toList := by
    decide
  rw [← Char.ofNat_toNat c]
  exact hletters _ (List.mem_range'_1.mpr (by omega))

theorem lower_of_not_upper (c : Char) (h : c.isUpper = false) : c.toLower = c := by
  refine dif_neg fun hc => ?_
  have hupper := (upper_range c).mpr hc
  rw [h] at hupper
  cases hupper

theorem lower_cases (p : Char → Prop) [DecidablePred p]
    (hother : ∀ c : Char, c.isUpper = false → c.toLower = c → p c)
    (hletters : ("ABCDEFGHIJKLMNOPQRSTUVWXYZ".toList.all fun c => p c) = true) (c : Char) : p c := by
  cases h : c.isUpper with
  | false => exact hother c h (lower_of_not_upper c h)
  | true => exact of_decide_eq_true (List.all_eq_true.mp hletters c (upper_letter c h))

theorem token_char_lower : ∀ c : Char, isTokenChar c.toLower = isTokenChar c :=
  lower_cases _ (fun _ _ h => congrArg isTokenChar h) (by decide)

theorem lower_not_upper : ∀ c : Char, c.toLower.isUpper = false :=
  lower_cases _ (fun _ hc h => h.symm ▸ hc) (by decide)

theorem is_name_lower (cs : List Char) : isName (cs.map Char.toLower) = true ↔
    isToken cs = true ∧ cs.length ≤ maxNameLength := by
  have htoken : isToken (cs.map Char.toLower) = isToken cs := by
    simp [isToken, Function.comp_def, token_char_lower]
  have hlower : (cs.map Char.toLower).all (!·.isUpper) = true := by
    simp [lower_not_upper]
  rw [isName, htoken, hlower, Bool.and_true, Bool.and_eq_true, decide_eq_true_eq, List.length_map]

theorem of_string_iff (s : String) : (∃ n, HeaderName.ofString? s = some n) ↔
    isToken s.toList = true ∧ s.toList.length ≤ maxNameLength := by
  rw [← is_name_lower]
  by_cases h : isName (s.toList.map Char.toLower) = true
  · simp [HeaderName.ofString?, h]
  · simp [HeaderName.ofString?, h]

theorem of_string_append (s e : String) (he : isToken e.toList = true) :
    (∃ n, HeaderName.ofString? (s ++ e) = some n) ↔
      (∀ c ∈ s.toList, isTokenChar c = true) ∧ (s.toList ++ e.toList).length ≤ maxNameLength := by
  simp only [isToken, Bool.and_eq_true, Bool.not_eq_true', List.isEmpty_eq_false_iff,
    List.all_eq_true] at he
  simp only [of_string_iff, isToken, String.toList_append, Bool.and_eq_true, Bool.not_eq_true',
    List.isEmpty_eq_false_iff, List.all_eq_true, List.forall_mem_append]
  constructor
  · rintro ⟨⟨_, hs, _⟩, hlen⟩
    exact ⟨hs, hlen⟩
  · rintro ⟨hs, hlen⟩
    exact ⟨⟨List.append_ne_nil_of_right_ne_nil _ he.1, hs, he.2⟩, hlen⟩

theorem name_ext {m n : HeaderName} (h : m.text.toList = n.text.toList) : m = n := by
  cases m
  cases n
  simpa [String.toList_inj] using h

end Http

namespace HeaderNames

/-! ## The hyphens at the end -/

/-- What is left of a prefix: it has no hyphen at its end, and only hyphens follow it. -/
structure Trimmed (configured : String) (s : List Char) : Prop where
  rest : ∃ k, configured.toList = s ++ List.replicate k '-'
  bare : s.getLast? ≠ some '-'

theorem trimmed_stem (configured : String) : Trimmed configured (stem configured).toList := by
  rw [stem, String.toList_ofList]
  constructor
  · have hall : ∀ c ∈ configured.toList.rtakeWhile (· = '-'), c = '-' := by
      intro c hc
      simpa using List.mem_rtakeWhile_imp hc
    refine ⟨(configured.toList.rtakeWhile (· = '-')).length, ?_⟩
    rw [← List.eq_replicate_of_mem hall]
    exact List.rdropWhile_append_rtakeWhile.symm
  · intro h
    rw [Text.trimEnd, List.getLast?_reverse] at h
    exact absurd (Text.head_drop _ _ _ h) (by decide)

theorem trimmed_unique {configured : String} {s : List Char} (h : Trimmed configured s) :
    s = (stem configured).toList := by
  obtain ⟨k, hk⟩ := h.rest
  have hhead : ∀ c, s.reverse.head? = some c → decide (c = '-') = false := by
    intro c hc
    rw [List.head?_reverse] at hc
    exact decide_eq_false fun he => h.bare (he ▸ hc)
  rw [stem, String.toList_ofList, hk, Text.trimEnd, List.reverse_append,
    Text.drop_bare _ _ _ (by simp) hhead, List.reverse_reverse]

/-! ## Prefixes that make names -/

structure Fits (s : List Char) : Prop where
  token : ∀ c ∈ s, Http.isTokenChar c = true
  short : (s ++ "-SecretVersion".toList).length ≤ Http.maxNameLength

def endings : List String := ["-AccessId", "-SecretVersion", "-Timestamp", "-Nonce", "-Sign"]

theorem of_stem_some (configured : String) : (∃ n, ofStem? configured = some n) ↔
    ∀ e ∈ endings, ∃ name, Http.HeaderName.ofString? (stem configured ++ e) = some name := by
  simp only [ofStem?, Option.bind_eq_bind, Option.bind_eq_some_iff, Option.pure_def,
    Option.some.injEq, endings, List.forall_mem_cons]
  constructor
  · rintro ⟨_, a, ha, v, hv, t, ht, n, hn, s, hs, _⟩
    exact ⟨⟨a, ha⟩, ⟨v, hv⟩, ⟨t, ht⟩, ⟨n, hn⟩, ⟨s, hs⟩, by simp⟩
  · rintro ⟨⟨a, ha⟩, ⟨v, hv⟩, ⟨t, ht⟩, ⟨n, hn⟩, ⟨s, hs⟩, _⟩
    exact ⟨_, a, ha, v, hv, t, ht, n, hn, s, hs, rfl⟩

theorem endings_token : ∀ e ∈ endings,
    Http.isToken e.toList = true ∧ e.toList.length ≤ "-SecretVersion".toList.length := by
  decide

theorem fits_iff (configured : String) :
    (∃ n, ofStem? configured = some n) ↔ Fits (stem configured).toList := by
  rw [of_stem_some]
  constructor
  · intro h
    have hlongest := h "-SecretVersion" (by decide)
    rw [Http.of_string_append _ _ (by decide)] at hlongest
    exact ⟨hlongest.1, hlongest.2⟩
  · intro h e he
    obtain ⟨htoken, hlen⟩ := endings_token e he
    refine (Http.of_string_append _ e htoken).mpr ⟨h.token, le_trans ?_ h.short⟩
    rw [List.length_append, List.length_append]
    exact Nat.add_le_add_left hlen _

theorem of_stem_ok_iff (configured : String) :
    (∃ n, ofStem configured = .ok n) ↔ Fits (stem configured).toList := by
  rw [← fits_iff]
  unfold ofStem
  cases ofStem? configured <;> simp

theorem of_stem_error (configured : String) (h : ¬ Fits (stem configured).toList) :
    ofStem configured = .error (.configuration
      ("invalid header prefix '" ++ stem configured ++ "': invalid HTTP header name")) := by
  rw [← fits_iff, not_exists] at h
  unfold ofStem
  rw [Option.eq_none_iff_forall_ne_some.mpr h]

/-! ## Names of two prefixes -/

/-- Prefixes that are equal up to the hyphens at their ends and the case of ASCII letters. -/
def Alike (p q : String) : Prop :=
  ∃ s t, Trimmed p s ∧ Trimmed q t ∧ Text.eqIgnoreAsciiCase s t = true

theorem alike_iff (p q : String) : Alike p q ↔
    (stem p).toList.map Char.toLower = (stem q).toList.map Char.toLower := by
  constructor
  · rintro ⟨s, t, hs, ht, h⟩
    rw [← trimmed_unique hs, ← trimmed_unique ht]
    exact eq_of_beq h
  · intro h
    exact ⟨_, _, trimmed_stem p, trimmed_stem q, beq_iff_eq.mpr h⟩

theorem fits_lower (s : List Char) : Fits (s.map Char.toLower) ↔ Fits s := by
  have htoken : (∀ c ∈ s.map Char.toLower, Http.isTokenChar c = true) ↔
      ∀ c ∈ s, Http.isTokenChar c = true := by
    simp [Http.token_char_lower]
  have hlen : (s.map Char.toLower ++ "-SecretVersion".toList).length =
      (s ++ "-SecretVersion".toList).length := by
    rw [List.length_append, List.length_append, List.length_map]
  exact ⟨fun h => ⟨htoken.mp h.token, hlen ▸ h.short⟩,
    fun h => ⟨htoken.mpr h.token, hlen ▸ h.short⟩⟩

def lowerEndings : List (List Char) := endings.map fun e => e.toList.map Char.toLower

theorem spelled_all {n : HeaderNames} {base : List Char} (h : Spelled n base) :
    n.all.map (fun name => name.text.toList) = lowerEndings.map (base ++ ·) := by
  have hlower : lowerEndings = ["-accessid".toList, "-secretversion".toList,
      "-timestamp".toList, "-nonce".toList, "-sign".toList] := by decide
  simp only [hlower, all, List.map_cons, List.map_nil, h.accessId, h.version, h.timestamp, h.nonce,
    h.sign]

theorem spelled_mem {n : HeaderNames} {base : List Char} (h : Spelled n base)
    {name : Http.HeaderName} (hname : name ∈ n.all) :
    ∃ e ∈ lowerEndings, base ++ e = name.text.toList := by
  have hmem : name.text.toList ∈ n.all.map (fun name => name.text.toList) :=
    List.mem_map_of_mem hname
  rw [spelled_all h] at hmem
  exact List.mem_map.mp hmem

theorem endings_apart : ∀ e ∈ lowerEndings, ∀ f ∈ lowerEndings, e <:+ f → e = f := by decide

/-- A name tells the beginning that it was made with. -/
theorem spelled_common {m n : HeaderNames} {a b : List Char} (hm : Spelled m a) (hn : Spelled n b)
    {name : Http.HeaderName} (hleft : name ∈ m.all) (hright : name ∈ n.all) : a = b := by
  obtain ⟨e, he, hae⟩ := spelled_mem hm hleft
  obtain ⟨f, hf, hbf⟩ := spelled_mem hn hright
  have hef : e = f := by
    rcases List.suffix_or_suffix_of_suffix ⟨a, hae⟩ ⟨b, hbf⟩ with h | h
    · exact endings_apart e he f hf h
    · exact (endings_apart f hf e he h).symm
  rw [← hef] at hbf
  exact List.append_cancel_right (hae.trans hbf.symm)

theorem spelled_inj {m n : HeaderNames} {base : List Char} (hm : Spelled m base)
    (hn : Spelled n base) : m = n := by
  cases m
  cases n
  rw [mk.injEq]
  exact ⟨Http.name_ext (hm.accessId.trans hn.accessId.symm),
    Http.name_ext (hm.version.trans hn.version.symm),
    Http.name_ext (hm.timestamp.trans hn.timestamp.symm),
    Http.name_ext (hm.nonce.trans hn.nonce.symm), Http.name_ext (hm.sign.trans hn.sign.symm)⟩

theorem name_lower (name : Http.HeaderName) : ∀ c ∈ name.text.toList, c.isUpper = false := by
  have h := name.wellFormed
  simp only [Http.isName, Bool.and_eq_true, List.all_eq_true, Bool.not_eq_true'] at h
  exact h.1.2

theorem of_stem_iff (configured : String) (n : HeaderNames) : ofStem configured = .ok n ↔
    Fits (stem configured).toList ∧ Spelled n ((stem configured).toList.map Char.toLower) := by
  constructor
  · intro h
    exact ⟨(of_stem_ok_iff configured).mp ⟨n, h⟩, of_stem_ok configured n h⟩
  · rintro ⟨hfits, hspelled⟩
    obtain ⟨m, hm⟩ := (of_stem_ok_iff configured).mpr hfits
    rw [hm, spelled_inj (of_stem_ok configured m hm) hspelled]

theorem of_stem_alike {p : String} {n : HeaderNames} (hp : ofStem p = .ok n) (q : String) :
    ofStem q = .ok n ↔ Alike p q := by
  obtain ⟨hfits, hspelled⟩ := (of_stem_iff p n).mp hp
  rw [of_stem_iff, alike_iff]
  constructor
  · rintro ⟨_, hq⟩
    exact spelled_common hspelled hq List.mem_cons_self List.mem_cons_self
  · intro h
    rw [← fits_lower, h, fits_lower] at hfits
    exact ⟨hfits, h ▸ hspelled⟩

theorem of_stem_apart {p q : String} {m n : HeaderNames} (hp : ofStem p = .ok m)
    (hq : ofStem q = .ok n) (h : ¬ Alike p q) : ∀ name ∈ m.all, name ∉ n.all := by
  intro name hleft hright
  exact h ((alike_iff p q).mpr
    (spelled_common (of_stem_ok p m hp) (of_stem_ok q n hq) hleft hright))

end HeaderNames

end Countersign
