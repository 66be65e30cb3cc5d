import Countersign.Proofs.Text.Utf8
import Countersign.Proofs.Token.Contents
import Countersign.Proofs.Token.UserText

/-!
# Claims read back

Written claims tell themselves again, unless the attributes of the user are nested
too deep for a reader of claims. Whatever the user is, a text that tells claims at
all tells everything else as it was written: the user comes last.
-/

set_option autoImplicit false

namespace Countersign

open Json (Node)

namespace Claims

def depth (c : Claims) : Nat := (c.user.map User.depth).getD 0

def Readable (c : Claims) : Prop := ∀ u, c.user = some u → u.Exact ∧ u.Tidy

theorem readable_none (c : Claims) (h : c.user = none) : c.Readable := by
  intro u hu
  rw [h] at hu
  cases hu

theorem readable_some (c : Claims) (u : User) (h : c.user = some u) (hexact : u.Exact)
    (htidy : u.Tidy) : c.Readable := by
  intro w hw
  rw [h] at hw
  cases hw
  exact ⟨hexact, htidy⟩

def userMember : Option User → List (String × Json)
  | none => []
  | some u => [("user", u.toJson)]

def front (c : Claims) : List (String × Json) :=
  [("iss", .string c.issuer), ("aud", .string c.audience), ("sub", .string c.subject),
    ("exp", .ofInt64 c.expirySeconds), ("exp_ms", .ofInt64 c.expireTime),
    ("iat", .ofInt64 c.issuedAt), ("jti", .string c.id)]

def members (c : Claims) : List (String × Json) := c.front ++ userMember c.user

theorem json_members (c : Claims) : c.toJson = .object c.members := by
  rw [toJson, members, front]
  cases c.user <;> rfl

theorem members_names (c : Claims) : (c.members.map (·.1)).Nodup := by
  rw [members, front]
  cases c.user <;> simp [userMember]

theorem int64_exact (n : Int64) : (Json.ofInt64 n).Exact := by
  rw [Json.ofInt64]
  split
  · exact .natural _
  · exact .negative n

theorem front_exact (c : Claims) : ∀ m ∈ c.front, m.2.Exact := by
  intro m hm
  simp only [front, List.mem_cons, List.not_mem_nil, or_false] at hm
  rcases hm with rfl | rfl | rfl | rfl | rfl | rfl | rfl
  · exact .string _
  · exact .string _
  · exact .string _
  · exact int64_exact _
  · exact int64_exact _
  · exact int64_exact _
  · exact .string _

theorem json_exact (c : Claims) (h : c.Readable) : c.toJson.Exact := by
  rw [json_members]
  refine .object _ fun m hm => ?_
  rw [members, List.mem_append] at hm
  rcases hm with hm | hm
  · exact c.front_exact m hm
  · cases huser : c.user with
    | none =>
      rw [huser] at hm
      cases hm
    | some u =>
      rw [huser] at hm
      obtain rfl := List.mem_singleton.mp hm
      exact User.json_exact u (h u huser).1

theorem user_written (c : Claims) (u : User) (h : c.user = some u) :
    Json.under (Json.namedNodes c.members) "user" = [u.toJson.node] := by
  apply Json.under_written _ _ _ c.members_names
  simp [members, front, userMember, h]

theorem user_told (c : Claims) (h : c.Readable) (hdepth : c.depth ≤ 124) :
    UserTold (Json.namedNodes c.members) c.user := by
  cases huser : c.user with
  | none =>
    apply UserTold.absent
    apply Json.under_missing
    simp [members, front, userMember, huser]
  | some u =>
    obtain ⟨hexact, htidy⟩ := h u huser
    have hroom : 1 + 2 + u.depth ≤ Json.maxDepth := by
      rw [depth, huser] at hdepth
      rw [Json.maxDepth]
      exact Nat.add_le_add_left hdepth 3
    have hread := u.of_node_again hexact htidy 1 (by decide)
    rw [if_pos hroom] at hread
    exact .present u.toJson.node u (user_written c u huser) hread

theorem told_written (c : Claims) (h : c.Readable) (hdepth : c.depth ≤ 124) :
    Told (Json.namedNodes c.members) c := by
  have htext : ∀ name s, (name, Json.string s) ∈ c.members →
      Json.Tells (Json.namedNodes c.members) name Node.text? s := fun name s hs =>
    ⟨_, Json.under_written _ _ _ c.members_names hs, Json.node_text s⟩
  have hint64 : ∀ name n, (name, Json.ofInt64 n) ∈ c.members →
      Json.Tells (Json.namedNodes c.members) name Node.int64? n := fun name n hn =>
    ⟨_, Json.under_written _ _ _ c.members_names hn, Json.node_int64 n⟩
  exact
    { readable := Json.named_readable c.members
      issuer := htext _ _ (by simp [members, front])
      audience := htext _ _ (by simp [members, front])
      subject := htext _ _ (by simp [members, front])
      expirySeconds := hint64 _ _ (by simp [members, front])
      expireTime := hint64 _ _ (by simp [members, front])
      issuedAt := hint64 _ _ (by simp [members, front])
      id := htext _ _ (by simp [members, front])
      user := user_told c h hdepth }

theorem bound_written (c : Claims) : PassesBound (Json.namedNodes c.members) := by
  apply Or.inl
  apply Json.under_missing
  rw [members, front]
  cases c.user <;> simp [userMember]

theorem told_not_deep (c d : Claims) (h : c.Readable) (hdepth : 124 < c.depth) :
    ¬ Told (Json.namedNodes c.members) d := by
  intro htold
  cases huser : c.user with
  | none =>
    rw [depth, huser] at hdepth
    exact absurd hdepth (by decide)
  | some u =>
    obtain ⟨hexact, htidy⟩ := h u huser
    have hdeep : ¬ 1 + 2 + u.depth ≤ Json.maxDepth := by
      rw [depth, huser] at hdepth
      rw [Json.maxDepth]
      change 124 < u.depth at hdepth
      omega
    have hunder := user_written c u huser
    have hread := u.of_node_again hexact htidy 1 (by decide)
    rw [if_neg hdeep] at hread
    have huser := htold.user
    cases hd : d.user with
    | none =>
      rw [hd] at huser
      cases huser with
      | absent habsent =>
        rw [hunder] at habsent
        cases habsent
      | null hnull =>
        rw [hunder] at hnull
        cases hnull
    | some w =>
      rw [hd] at huser
      cases huser with
      | present x _ hpresent hw =>
        rw [hunder] at hpresent
        cases hpresent
        rw [hread] at hw
        cases hw

theorem text_of_encoded (cs : List Char) : textOf (Utf8.encode cs) = cs := by
  simp [textOf, Utf8.decode?, Utf8.decode_encode]

/-- Claims are told by their own text unless the attributes of the user are nested too deep. -/
theorem of_bytes_written (c : Claims) (h : c.Readable) : ofBytes? (Utf8.encode c.toJson.print) =
    if 124 < c.depth then none else some c := by
  have hnode : Node.ofText? c.toJson.print = some (.object (Json.namedNodes c.members)) := by
    rw [Json.node_of_print _ (c.json_exact h), json_members]
    rfl
  rw [ofBytes?, text_of_encoded]
  split
  · next hdepth =>
    rw [Option.eq_none_iff_forall_ne_some]
    intro d hd
    obtain ⟨members, hmembers, htold, _⟩ := (of_text_iff _ d).mp hd
    rw [hnode] at hmembers
    cases hmembers
    exact told_not_deep c d h hdepth htold
  · next hdepth =>
    exact (of_text_iff _ c).mpr
      ⟨_, hnode, told_written c h (Nat.not_lt.mp hdepth), bound_written c⟩

/-! ## Claims with any user -/

theorem named_append (xs ys : List (String × Json)) :
    Json.namedNodes (xs ++ ys) = Json.namedNodes xs ++ Json.namedNodes ys := by
  induction xs with
  | nil => rfl
  | cons x xs ih =>
    obtain ⟨n, v⟩ := x
    rw [List.cons_append, Json.namedNodes, Json.namedNodes, ih, List.cons_append]

theorem print_user (c : Claims) (u : User) (h : c.user = some u) : c.toJson.print =
    '{' :: (Json.commaed (Json.printMembers c.front) ++
      ',' :: (Json.commaed (Json.printMembers [("user", u.toJson)]) ++ ['}'])) := by
  rw [json_members, members, h, userMember, front]
  simp [Json.print, Json.printMembers, Json.commaed]

theorem front_read (c : Claims) (members : List (List Json.StringPart × Node))
    (h : Node.ofText? c.toJson.print = some (.object members)) :
    ∃ named, members = Json.namedNodes c.front ++ named := by
  have hback : ∀ m ∈ c.front, m.2.ReadBack := fun m hm => Json.print_read m.2 (c.front_exact m hm)
  cases huser : c.user with
  | none =>
    rw [Json.node_of_print _ (c.json_exact (c.readable_none huser)), json_members] at h
    cases h
    exact ⟨_, named_append c.front (userMember c.user)⟩
  | some u =>
    rw [print_user c u huser] at h
    obtain ⟨⟨x, r⟩, hx, h⟩ := Option.bind_eq_some_iff.mp h
    rw [Option.ite_none_right_eq_some] at h
    obtain ⟨named, hnamed⟩ := Json.object_front _ _ _ _ _ _ hback (by
      rw [List.length_cons, List.length_append]
      exact Nat.lt_add_one_of_le (Nat.le_add_right _ _)) hx
    rw [hnamed] at h
    exact ⟨named, (Node.object.inj (Option.some.inj h.2)).symm⟩

theorem tells_front {α : Type} (c : Claims) (named : List (List Json.StringPart × Node))
    (name : String) (v : Json) (read : Node → Option α) (value told : α)
    (hv : (name, v) ∈ c.front) (hread : read v.node = some value)
    (h : Json.Tells (Json.namedNodes c.front ++ named) name read told) : told = value := by
  have hnames : (c.front.map (·.1)).Nodup := by
    rw [front]
    simp
  obtain ⟨x, hunder, htold⟩ := h
  have hfront := Json.under_written c.front name v hnames hv
  rw [Json.under, List.filter_append, List.map_append] at hunder
  rw [Json.under] at hfront
  rw [hfront, List.singleton_append] at hunder
  rw [← (List.cons.inj hunder).1, hread] at htold
  exact (Option.some.inj htold).symm

/-- What the text of claims tells differs from them at most in the user. -/
theorem told_same (c d : Claims) (h : ofBytes? (Utf8.encode c.toJson.print) = some d) :
    d = { c with user := d.user } := by
  rw [ofBytes?, text_of_encoded, of_text_iff] at h
  obtain ⟨members, hmembers, htold, _⟩ := h
  obtain ⟨named, rfl⟩ := c.front_read members hmembers
  have htext : ∀ name s told, (name, Json.string s) ∈ c.front →
      Json.Tells (Json.namedNodes c.front ++ named) name Node.text? told → told = s :=
    fun name s told hs => c.tells_front named name _ _ _ told hs (Json.node_text s)
  have hint64 : ∀ name n told, (name, Json.ofInt64 n) ∈ c.front →
      Json.Tells (Json.namedNodes c.front ++ named) name Node.int64? told → told = n :=
    fun name n told hn => c.tells_front named name _ _ _ told hn (Json.node_int64 n)
  have hissuer := htext "iss" c.issuer _ (by simp [front]) htold.issuer
  have haudience := htext "aud" c.audience _ (by simp [front]) htold.audience
  have hsubject := htext "sub" c.subject _ (by simp [front]) htold.subject
  have hseconds := hint64 "exp" c.expirySeconds _ (by simp [front]) htold.expirySeconds
  have htime := hint64 "exp_ms" c.expireTime _ (by simp [front]) htold.expireTime
  have hissued := hint64 "iat" c.issuedAt _ (by simp [front]) htold.issuedAt
  have hid := htext "jti" c.id _ (by simp [front]) htold.id
  obtain ⟨issuer, audience, subject, expirySeconds, expireTime, issuedAt, id, user⟩ := d
  cases hissuer
  cases haudience
  cases hsubject
  cases hseconds
  cases htime
  cases hissued
  cases hid
  rfl

end Claims

end Countersign
