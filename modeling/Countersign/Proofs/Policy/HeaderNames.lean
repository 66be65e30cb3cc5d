import Countersign.Http.Request
import Countersign.Policy.HeaderNames

/-!
# The five names of a prefix

The names share their beginning and differ in their endings, so no two of them
are one, and none of them is the name of the content type. Writing one signature
header therefore never disturbs another, or what decides about the body.
-/

set_option autoImplicit false

namespace Countersign.HeaderNames

def all (n : HeaderNames) : List Http.HeaderName :=
  [n.accessId, n.version, n.timestamp, n.nonce, n.sign]

theorem of_string_text (s : String) (n : Http.HeaderName)
    (h : Http.HeaderName.ofString? s = some n) : n.text.toList = s.toList.map Char.toLower := by
  by_cases hw : Http.isName (s.toList.map Char.toLower) = true
  · simp only [Http.HeaderName.ofString?, hw, dite_true, Option.some.injEq] at h
    rw [← h]
    exact String.toList_ofList
  · simp [Http.HeaderName.ofString?, hw] at h

structure Spelled (n : HeaderNames) (base : List Char) : Prop where
  accessId : n.accessId.text.toList = base ++ "-accessid".toList
  version : n.version.text.toList = base ++ "-secretversion".toList
  timestamp : n.timestamp.text.toList = base ++ "-timestamp".toList
  nonce : n.nonce.text.toList = base ++ "-nonce".toList
  sign : n.sign.text.toList = base ++ "-sign".toList

theorem of_stem_spelled (configured : String) (n : HeaderNames)
    (h : ofStem? configured = some n) :
    Spelled n ((stem configured).toList.map Char.toLower) := by
  simp only [ofStem?, Option.bind_eq_bind, Option.bind_eq_some_iff, Option.pure_def,
    Option.some.injEq] at h
  obtain ⟨_, h₁, _, h₂, _, h₃, _, h₄, _, h₅, rfl⟩ := h
  have ending : ∀ (suffix lower : String) (name : Http.HeaderName),
      suffix.toList.map Char.toLower = lower.toList →
      Http.HeaderName.ofString? (stem configured ++ suffix) = some name →
      name.text.toList = (stem configured).toList.map Char.toLower ++ lower.toList := by
    intro suffix lower name hl hn
    rw [of_string_text _ _ hn, String.toList_append, List.map_append, hl]
  exact ⟨ending _ _ _ (by decide) h₁, ending _ _ _ (by decide) h₂, ending _ _ _ (by decide) h₃,
    ending _ _ _ (by decide) h₄, ending _ _ _ (by decide) h₅⟩

theorem of_stem_ok (configured : String) (n : HeaderNames) (h : ofStem configured = .ok n) :
    Spelled n ((stem configured).toList.map Char.toLower) := by
  apply of_stem_spelled
  unfold ofStem at h
  cases hs : ofStem? configured with
  | none => simp [hs] at h
  | some m =>
    simp only [hs, Except.ok.injEq] at h
    rw [h]

theorem name_ne {m n : Http.HeaderName} (h : m.text.toList ≠ n.text.toList) : m ≠ n := by
  rintro rfl
  exact h rfl

theorem spelled_nodup {n : HeaderNames} {base : List Char} (h : Spelled n base) : n.all.Nodup := by
  have hlen : (n.all.map fun name => name.text.toList.length) =
      [base.length + 9, base.length + 14, base.length + 10, base.length + 6, base.length + 5] := by
    simp [all, h.accessId, h.version, h.timestamp, h.nonce, h.sign]
  have hd : (n.all.map fun name => name.text.toList.length).Nodup := by
    rw [hlen]
    simp
  exact List.Pairwise.of_map _ (fun a b hne hab => hne (by rw [hab])) hd

theorem ending_ne (base suffix other : List Char) (hlen : 4 ≤ suffix.length)
    (h : suffix.reverse.take 4 ≠ other.reverse.take 4) : base ++ suffix ≠ other := by
  rintro rfl
  apply h
  rw [List.reverse_append, List.take_append_of_le_length (by simpa using hlen)]

theorem spelled_content_type {n : HeaderNames} {base : List Char} (h : Spelled n base) :
    Http.contentTypeName ∉ n.all := by
  have apart : ∀ (name : Http.HeaderName) (suffix : List Char), 4 ≤ suffix.length →
      suffix.reverse.take 4 ≠ Http.contentTypeName.text.toList.reverse.take 4 →
      name.text.toList = base ++ suffix → Http.contentTypeName ≠ name := by
    intro name suffix hlen hend ht
    exact (name_ne fun he => ending_ne base suffix _ hlen hend (ht.symm.trans he)).symm
  simp only [all, List.mem_cons, List.not_mem_nil, or_false, not_or]
  exact ⟨apart _ _ (by decide) (by decide) h.accessId, apart _ _ (by decide) (by decide) h.version,
    apart _ _ (by decide) (by decide) h.timestamp, apart _ _ (by decide) (by decide) h.nonce,
    apart _ _ (by decide) (by decide) h.sign⟩

end Countersign.HeaderNames
