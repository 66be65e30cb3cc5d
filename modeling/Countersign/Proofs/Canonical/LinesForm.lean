import Countersign.Canonical.Request
import Countersign.Proofs.Canonical.Pairs

/-!
# What the lines form of a request determines

No line break stands in method, path, timestamp and nonce, so the form gives them
up one after the other. Query and body are free text: the query is decoded and may
have line breaks of its own, and then the form does not tell where it ends.
-/

set_option autoImplicit false

namespace Countersign.CanonicalRequest

structure SameHead (a b : CanonicalRequest) : Prop where
  method : a.method = b.method
  path : a.path = b.path
  timestamp : a.timestamp = b.timestamp
  nonce : a.nonce = b.nonce

/-- A part of one query, from a line break on, stands at the beginning of the other body instead. -/
def Spilled (a b : CanonicalRequest) : Prop :=
  ∃ x, a.query.getD "" = b.query.getD "" ++ "\n" ++ x ∧
    b.body.getD "" = x ++ "\n" ++ a.body.getD ""

structure Lined (r : CanonicalRequest) : Prop where
  method_space : ' ' ∉ r.method.toList
  method : '\n' ∉ r.method.toList
  path : '\n' ∉ r.path.toList
  timestamp : '\n' ∉ r.timestamp.toList
  nonce : '\n' ∉ r.nonce.toList

structure Tidy (r : CanonicalRequest) : Prop where
  query : r.query ≠ some ""
  body : r.body ≠ some ""

theorem lines_form_chars (r : CanonicalRequest) :
    r.linesForm.toList = (r.method.toList ++ ' ' :: r.path.toList) ++ '\n' ::
      (r.timestamp.toList ++ '\n' :: (r.nonce.toList ++ '\n' ::
        ((r.query.getD "").toList ++ '\n' :: (r.body.getD "").toList ++ ['\n']))) := by
  have hspace : " ".toList = [' '] := by decide
  have hbreak : "\n".toList = ['\n'] := by decide
  simp [linesForm, hspace, hbreak]

theorem head_cancel (a b : CanonicalRequest) (ha : a.Lined) (hb : b.Lined)
    (h : a.linesForm = b.linesForm) :
    SameHead a b ∧ (a.query.getD "").toList ++ '\n' :: (a.body.getD "").toList =
      (b.query.getD "").toList ++ '\n' :: (b.body.getD "").toList := by
  have hline : ∀ r : CanonicalRequest, r.Lined → '\n' ∉ r.method.toList ++ ' ' :: r.path.toList := by
    intro r hr
    simp [hr.method, hr.path]
  rw [← String.toList_inj, lines_form_chars, lines_form_chars] at h
  obtain ⟨hfirst, h⟩ := Text.first_separator '\n' _ _ _ _ (hline a ha) (hline b hb) h
  obtain ⟨hmethod, hpath⟩ :=
    Text.first_separator ' ' _ _ _ _ ha.method_space hb.method_space hfirst
  obtain ⟨htime, h⟩ := Text.first_separator '\n' _ _ _ _ ha.timestamp hb.timestamp h
  obtain ⟨hnonce, h⟩ := Text.first_separator '\n' _ _ _ _ ha.nonce hb.nonce h
  exact ⟨⟨String.toList_inj.mp hmethod, String.toList_inj.mp hpath, String.toList_inj.mp htime,
    String.toList_inj.mp hnonce⟩, List.append_cancel_right h⟩

theorem spilled_of_split (a b : CanonicalRequest) (x : List Char)
    (hq : (a.query.getD "").toList = (b.query.getD "").toList ++ ['\n'] ++ x)
    (hb : (b.body.getD "").toList = x ++ ['\n'] ++ (a.body.getD "").toList) : Spilled a b := by
  have hbreak : "\n".toList = ['\n'] := by decide
  refine ⟨String.ofList x, String.toList_inj.mp ?_, String.toList_inj.mp ?_⟩
  · simp [hq, hbreak]
  · simp [hb, hbreak]

theorem rest_cancel (a b : CanonicalRequest)
    (h : (a.query.getD "").toList ++ '\n' :: (a.body.getD "").toList =
      (b.query.getD "").toList ++ '\n' :: (b.body.getD "").toList) :
    (a.query.getD "" = b.query.getD "" ∧ a.body.getD "" = b.body.getD "") ∨
      Spilled a b ∨ Spilled b a := by
  rcases Text.split_separator '\n' [] _ _ _ _ (by simp) h with
    ⟨hq, hb⟩ | ⟨x, hq, hb⟩ | ⟨x, hq, hb⟩
  · exact Or.inl ⟨String.toList_inj.mp hq, String.toList_inj.mp hb⟩
  · exact Or.inr (Or.inl (spilled_of_split a b x hq hb))
  · exact Or.inr (Or.inr (spilled_of_split b a x hq hb))

theorem lines_form_of_rest (a b : CanonicalRequest) (hhead : SameHead a b)
    (h : a.query.getD "" ++ "\n" ++ a.body.getD "" = b.query.getD "" ++ "\n" ++ b.body.getD "") :
    a.linesForm = b.linesForm := by
  have hform : ∀ r : CanonicalRequest, r.linesForm = r.method ++ " " ++ r.path ++ "\n" ++
      r.timestamp ++ "\n" ++ r.nonce ++ "\n" ++ (r.query.getD "" ++ "\n" ++ r.body.getD "") ++
      "\n" := by
    intro r
    simp only [linesForm, String.append_assoc]
  rw [hform, hform, hhead.method, hhead.path, hhead.timestamp, hhead.nonce, h]

theorem spilled_rest (a b : CanonicalRequest) (h : Spilled a b) :
    a.query.getD "" ++ "\n" ++ a.body.getD "" = b.query.getD "" ++ "\n" ++ b.body.getD "" := by
  obtain ⟨x, hq, hb⟩ := h
  rw [hq, hb]
  simp only [String.append_assoc]

theorem option_of_getD (x y : Option String) (hx : x ≠ some "") (hy : y ≠ some "")
    (h : x.getD "" = y.getD "") : x = y := by
  cases x <;> cases y <;> simp_all

theorem tidy_ext (a b : CanonicalRequest) (ha : a.Tidy) (hb : b.Tidy) (hhead : SameHead a b)
    (hq : a.query.getD "" = b.query.getD "") (hbody : a.body.getD "" = b.body.getD "") :
    a = b := by
  have hquery := option_of_getD _ _ ha.query hb.query hq
  have hbody' := option_of_getD _ _ ha.body hb.body hbody
  obtain ⟨hmethod, hpath, htime, hnonce⟩ := hhead
  cases a
  cases b
  simp only at hmethod hpath htime hnonce hquery hbody'
  rw [hmethod, hpath, htime, hnonce, hquery, hbody']

/-- Two requests have one lines form exactly when they are the same request, or differ by where the
query ends and the body begins. -/
theorem lines_form_eq (a b : CanonicalRequest) (ha : a.Lined) (hb : b.Lined) (hta : a.Tidy)
    (htb : b.Tidy) :
    a.linesForm = b.linesForm ↔ a = b ∨ (SameHead a b ∧ (Spilled a b ∨ Spilled b a)) := by
  constructor
  · intro h
    obtain ⟨hhead, hrest⟩ := head_cancel a b ha hb h
    rcases rest_cancel a b hrest with ⟨hq, hbody⟩ | hspill
    · exact Or.inl (tidy_ext a b hta htb hhead hq hbody)
    · exact Or.inr ⟨hhead, hspill⟩
  · rintro (rfl | ⟨hhead, hab | hba⟩)
    · rfl
    · exact lines_form_of_rest a b hhead (spilled_rest a b hab)
    · exact lines_form_of_rest a b hhead (spilled_rest b a hba).symm

theorem of_tidy (method path nonce timestamp : String) (query body : Option String) :
    (of method path nonce timestamp query body).Tidy := by
  constructor
  · intro h
    obtain ⟨raw, _, hraw⟩ := Option.bind_eq_some_iff.mp h
    exact Query.canonical_ne_empty raw hraw
  · intro h
    have hne := (Option.filter_eq_some_iff.mp h).2
    simp at hne

end Countersign.CanonicalRequest
