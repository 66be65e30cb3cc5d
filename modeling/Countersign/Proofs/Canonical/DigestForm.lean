import Countersign.Canonical.Request
import Countersign.Proofs.Text.Separator

/-!
# What the digest form of a request determines

The fields of the digest form are not escaped. Read from its end, the form gives
up body digest, query digest and timestamp, because none of them holds an
ampersand; read from its start, it gives up the method, because no method holds
an equals sign. What is left is path and nonce with one separator between them,
and that separator may occur inside either of the two.
-/

set_option autoImplicit false

namespace Countersign.CanonicalRequest

theorem digit_not_separator (n : Nat) (h : n < 16) : Hex.digit n ≠ '&' := by
  have hall : ∀ k : Fin 16, Hex.digit k.val ≠ '&' := by decide
  exact hall ⟨n, h⟩

theorem md5_hex_chars (s : String) : '&' ∉ (md5Hex s).toList := by
  rw [md5Hex, String.toList_ofList, Hex.encode, List.mem_flatMap]
  rintro ⟨b, _, hb⟩
  have hlt := b.toNat_lt
  simp only [List.mem_cons, List.not_mem_nil, or_false] at hb
  rcases hb with h | h
  · exact digit_not_separator _ (by omega) h.symm
  · exact digit_not_separator _ (by omega) h.symm

theorem digest_field_some (name s : String) :
    (digestField name (some s)).toList = '&' :: (name.toList ++ '=' :: (md5Hex s).toList) := by
  simp [digestField]

theorem digest_field_chars (name s : String) (hname : '&' ∉ name.toList) :
    '&' ∉ name.toList ++ '=' :: (md5Hex s).toList := by
  have hhex := md5_hex_chars s
  simp [hname, hhex]

def LastField (k : Char) (cs : List Char) : Prop := ∃ a s, cs = a ++ '&' :: k :: s ∧ '&' ∉ k :: s

theorem last_field_digest (name : String) (n : Char) (rest p : List Char)
    (hname : name.toList = n :: rest) (hclean : '&' ∉ name.toList) (k : Char)
    (hp : LastField k p) (x : Option String) :
    LastField k (p ++ (digestField name x).toList) ∨
      LastField n (p ++ (digestField name x).toList) := by
  cases x with
  | none => exact Or.inl (by simpa [digestField] using hp)
  | some s =>
    have hchars := digest_field_chars name s hclean
    rw [hname] at hchars
    exact Or.inr ⟨p, rest ++ '=' :: (md5Hex s).toList, by rw [digest_field_some, hname]; rfl, hchars⟩

theorem digest_field_absent (name : String) (n : Char) (rest p q : List Char)
    (hname : name.toList = n :: rest) (hclean : '&' ∉ name.toList) (k : Char)
    (hp : LastField k p) (hk : k ≠ n) (s : String) :
    p ≠ q ++ (digestField name (some s)).toList := by
  obtain ⟨a, t, rfl, ht⟩ := hp
  intro h
  rw [digest_field_some] at h
  have hlast := (Text.last_separator '&' _ _ _ _ ht (digest_field_chars name s hclean) h).2
  rw [hname] at hlast
  exact hk (List.cons.inj hlast).1

/-- A digest at the end of a text can be told from the fields before it. -/
theorem digest_field_cancel (name : String) (n : Char) (rest p q : List Char)
    (hname : name.toList = n :: rest) (hclean : '&' ∉ name.toList) (j k : Char)
    (hp : LastField j p) (hj : j ≠ n) (hq : LastField k q) (hk : k ≠ n) (x y : Option String)
    (h : p ++ (digestField name x).toList = q ++ (digestField name y).toList) :
    p = q ∧ x.map md5Hex = y.map md5Hex := by
  cases x with
  | none =>
    cases y with
    | none => exact ⟨by simpa [digestField] using h, rfl⟩
    | some t =>
      have hpq : p = q ++ (digestField name (some t)).toList := by simpa [digestField] using h
      exact absurd hpq (digest_field_absent name n rest p q hname hclean j hp hj t)
  | some s =>
    cases y with
    | none =>
      have hqp : q = p ++ (digestField name (some s)).toList := by simpa [digestField] using h.symm
      exact absurd hqp (digest_field_absent name n rest q p hname hclean k hq hk s)
    | some t =>
      rw [digest_field_some, digest_field_some] at h
      obtain ⟨hpq, hst⟩ := Text.last_separator '&' p q _ _ (digest_field_chars name s hclean)
        (digest_field_chars name t hclean) h
      have hhex := (List.cons.inj (List.append_cancel_left hst)).2
      exact ⟨hpq, congrArg some (String.toList_inj.mp hhex)⟩

def nonceMark : String := "&nonce="

def stamped (r : CanonicalRequest) : List Char :=
  "method=".toList ++ (r.method.toList ++ ("&requestPath=".toList ++
    ((r.path.toList ++ (nonceMark.toList ++ r.nonce.toList)) ++
      ("&timestamp=".toList ++ r.timestamp.toList))))

theorem digest_form_chars (r : CanonicalRequest) :
    r.digestForm.toList = stamped r ++ (digestField "queryStringMd5" r.query).toList ++
      (digestField "requestBodyMd5" r.body).toList := by
  unfold digestForm stamped nonceMark
  simp only [String.toList_append, List.append_assoc]

theorem timestamp_mark : "&timestamp=".toList = '&' :: 't' :: "imestamp=".toList := by decide

theorem path_mark : "&requestPath=".toList = '&' :: "requestPath=".toList := by decide

theorem nonce_mark : nonceMark.toList = '&' :: "nonce=".toList := by decide

theorem stamped_last (r : CanonicalRequest) (ht : '&' ∉ r.timestamp.toList) :
    LastField 't' (stamped r) := by
  refine ⟨"method=".toList ++ (r.method.toList ++ ("&requestPath=".toList ++
    (r.path.toList ++ (nonceMark.toList ++ r.nonce.toList)))),
    "imestamp=".toList ++ r.timestamp.toList, ?_, ?_⟩
  · unfold stamped
    simp only [timestamp_mark, List.append_assoc, List.cons_append]
  · have hmark : '&' ∉ 't' :: "imestamp=".toList := by decide
    rw [← List.cons_append, List.mem_append, not_or]
    exact ⟨hmark, ht⟩

theorem query_last (r : CanonicalRequest) (ht : '&' ∉ r.timestamp.toList) :
    ∃ k, k ≠ 'r' ∧ LastField k (stamped r ++ (digestField "queryStringMd5" r.query).toList) := by
  rcases last_field_digest "queryStringMd5" 'q' "ueryStringMd5".toList (stamped r) (by decide)
    (by decide) 't' (stamped_last r ht) r.query with h | h
  · exact ⟨'t', by decide, h⟩
  · exact ⟨'q', by decide, h⟩

structure Alike (a b : CanonicalRequest) : Prop where
  method : a.method = b.method
  timestamp : a.timestamp = b.timestamp
  query : a.query.map md5Hex = b.query.map md5Hex
  body : a.body.map md5Hex = b.body.map md5Hex

/-- A part of one path, from a separator on, stands at the beginning of the other nonce instead. -/
def Shifted (a b : CanonicalRequest) : Prop :=
  ∃ x, a.path = b.path ++ nonceMark ++ x ∧ b.nonce = x ++ nonceMark ++ a.nonce

theorem stamped_cancel (a b : CanonicalRequest) (hma : '=' ∉ a.method.toList)
    (hmb : '=' ∉ b.method.toList) (hta : '&' ∉ a.timestamp.toList)
    (htb : '&' ∉ b.timestamp.toList) (h : stamped a = stamped b) :
    a.method = b.method ∧ a.timestamp = b.timestamp ∧
      a.path.toList ++ (nonceMark.toList ++ a.nonce.toList) =
        b.path.toList ++ (nonceMark.toList ++ b.nonce.toList) := by
  have heq : '=' ∈ "requestPath=".toList := by decide
  have hmark : '&' ∉ 't' :: "imestamp=".toList := by decide
  have hclean : ∀ t : List Char, '&' ∉ t → '&' ∉ 't' :: "imestamp=".toList ++ t := by
    intro t ht
    rw [List.mem_append, not_or]
    exact ⟨hmark, ht⟩
  have hrest := List.append_cancel_left h
  rw [path_mark] at hrest
  rcases Text.split_separator '&' "requestPath=".toList _ _ _ _ (by decide) hrest with
    ⟨hmethod, hrest⟩ | ⟨x, hx, _⟩ | ⟨x, hx, _⟩
  · rw [timestamp_mark] at hrest
    obtain ⟨hpath, htime⟩ := Text.last_separator '&' _ _ _ _ (hclean _ hta) (hclean _ htb) hrest
    exact ⟨String.toList_inj.mp hmethod, String.toList_inj.mp (List.append_cancel_left htime), hpath⟩
  · exact absurd (by rw [hx]; simp only [List.mem_append, List.mem_cons, heq]; simp) hma
  · exact absurd (by rw [hx]; simp only [List.mem_append, List.mem_cons, heq]; simp) hmb

theorem path_nonce_cancel (a b : CanonicalRequest) (hna : '&' ∉ a.nonce.toList)
    (h : a.path.toList ++ (nonceMark.toList ++ a.nonce.toList) =
      b.path.toList ++ (nonceMark.toList ++ b.nonce.toList)) :
    (a.path = b.path ∧ a.nonce = b.nonce) ∨ Shifted a b := by
  rw [nonce_mark] at h
  rcases Text.split_separator '&' "nonce=".toList _ _ _ _ (by decide) h with
    ⟨hp, hn⟩ | ⟨x, hp, hn⟩ | ⟨x, hp, hn⟩
  · exact Or.inl ⟨String.toList_inj.mp hp, String.toList_inj.mp hn⟩
  · refine Or.inr ⟨String.ofList x, String.toList_inj.mp ?_, String.toList_inj.mp ?_⟩
    · rw [String.toList_append, String.toList_append, String.toList_ofList, hp, nonce_mark]
    · rw [String.toList_append, String.toList_append, String.toList_ofList, hn, nonce_mark]
  · exact absurd (by rw [hn]; simp) hna

theorem digest_field_congr (name : String) {x y : Option String}
    (h : x.map md5Hex = y.map md5Hex) : digestField name x = digestField name y := by
  cases x <;> cases y <;> simp_all [digestField]

/-- Two requests, one with a nonce free of ampersands, have one digest form exactly when they agree
in all fields, up to digests, or differ by where path ends and nonce begins. -/
theorem digest_form_eq (a b : CanonicalRequest) (hma : '=' ∉ a.method.toList)
    (hmb : '=' ∉ b.method.toList) (hta : '&' ∉ a.timestamp.toList)
    (htb : '&' ∉ b.timestamp.toList) (hna : '&' ∉ a.nonce.toList) :
    a.digestForm = b.digestForm ↔
      Alike a b ∧ ((a.path = b.path ∧ a.nonce = b.nonce) ∨ Shifted a b) := by
  constructor
  · intro h
    rw [← String.toList_inj, digest_form_chars, digest_form_chars] at h
    obtain ⟨j, hj, hlast⟩ := query_last a hta
    obtain ⟨k, hk, hlast'⟩ := query_last b htb
    obtain ⟨hq, hbody⟩ := digest_field_cancel "requestBodyMd5" 'r' "equestBodyMd5".toList _ _
      (by decide) (by decide) j k hlast hj hlast' hk _ _ h
    obtain ⟨hs, hquery⟩ := digest_field_cancel "queryStringMd5" 'q' "ueryStringMd5".toList _ _
      (by decide) (by decide) 't' 't' (stamped_last a hta) (by decide) (stamped_last b htb)
      (by decide) _ _ hq
    obtain ⟨hmethod, htime, hpath⟩ := stamped_cancel a b hma hmb hta htb hs
    exact ⟨⟨hmethod, htime, hquery, hbody⟩, path_nonce_cancel a b hna hpath⟩
  · rintro ⟨⟨hmethod, htime, hquery, hbody⟩, hpath⟩
    have hpn : a.path ++ nonceMark ++ a.nonce = b.path ++ nonceMark ++ b.nonce := by
      rcases hpath with ⟨hp, hn⟩ | ⟨x, hp, hn⟩
      · rw [hp, hn]
      · rw [hp, hn]
        simp [String.append_assoc]
    have hform : ∀ r : CanonicalRequest, r.digestForm =
        "method=" ++ r.method ++ "&requestPath=" ++ (r.path ++ nonceMark ++ r.nonce) ++
          "&timestamp=" ++ r.timestamp ++ digestField "queryStringMd5" r.query ++
          digestField "requestBodyMd5" r.body := by
      intro r
      unfold digestForm nonceMark
      simp only [String.append_assoc]
    rw [hform, hform, hmethod, htime, hpn, digest_field_congr _ hquery, digest_field_congr _ hbody]

end Countersign.CanonicalRequest
