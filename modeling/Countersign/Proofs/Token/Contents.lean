import Countersign.Proofs.Json.Fields
import Countersign.Token.Claims
import Countersign.Token.Header

/-!
# What the parts of a token text tell

A payload tells claims if it is an object that has each of them once, in its own
form, and further members only as long as a reader gets past a lower bound of
time. A header names its algorithm if all that it has a meaning for is well
formed and all the rest are texts.
-/

set_option autoImplicit false

namespace Countersign

open Json (Node StringPart)

variable (members : List (List StringPart × Node))

namespace Claims

/-- What an object tells of a user: without the member, and with null there, that there is none. -/
inductive UserTold : Option User → Prop where
  | absent (h : Json.under members "user" = []) : UserTold none
  | null (h : Json.under members "user" = [.null]) : UserTold none
  | present (x : Node) (u : User) (h : Json.under members "user" = [x])
      (hu : User.ofNode? 1 x = some u) : UserTold (some u)

structure Told (c : Claims) : Prop where
  readable : ∀ m ∈ members, (Json.textOfParts? m.1).isSome = true
  issuer : Json.Tells members "iss" Node.text? c.issuer
  audience : Json.Tells members "aud" Node.text? c.audience
  subject : Json.Tells members "sub" Node.text? c.subject
  expirySeconds : Json.Tells members "exp" Node.int64? c.expirySeconds
  expireTime : Json.Tells members "exp_ms" Node.int64? c.expireTime
  issuedAt : Json.Tells members "iat" Node.int64? c.issuedAt
  id : Json.Tells members "jti" Node.text? c.id
  user : UserTold members c.user

/-- There is no lower bound of time, or one that a reader gets past. -/
def PassesBound : Prop :=
  Json.under members "nbf" = [] ∨ ∃ x, Json.under members "nbf" = [x] ∧ isPassed x = true

theorem user_told_once (user : Option User) (h : UserTold members user) :
    (Json.under members "user").length ≤ 1 := by
  cases h with
  | absent h => simp [h]
  | null h => simp [h]
  | present x u h => simp [h]

theorem user_told_iff (user : Option User) (honce : (Json.under members "user").length ≤ 1) :
    Json.field? none (Node.nullable? (User.ofNode? 1)) (Json.under members "user").head? =
      some user ↔ UserTold members user := by
  cases hx : (Json.under members "user").head? with
  | none =>
    have hnil := (Json.head_under_none members "user").mp hx
    constructor
    · intro h
      cases h
      exact .absent hnil
    · intro h
      cases h with
      | absent => rfl
      | null h => rw [hnil] at h; cases h
      | present x u h => rw [hnil] at h; cases h
  | some x =>
    have hone := (Json.head_under members "user" x honce).mp hx
    rw [Json.field?, Json.nullable_iff]
    constructor
    · rintro (⟨rfl, rfl⟩ | ⟨_, u, hu, rfl⟩)
      · exact .null hone
      · exact .present x u hone hu
    · intro h
      cases h with
      | absent h =>
        rw [hone] at h
        cases h
      | null h =>
        rw [hone] at h
        cases h
        exact Or.inl ⟨rfl, rfl⟩
      | present y u h hu =>
        rw [hone] at h
        cases h
        refine Or.inr ⟨?_, u, hu, rfl⟩
        rintro rfl
        cases hu

theorem of_members_iff (c : Claims) : ofMembers? members = some c ↔ Told members c := by
  constructor
  · intro h
    obtain ⟨xs, hxs, h⟩ := Option.bind_eq_some_iff.mp h
    obtain ⟨⟨hreadable, honce⟩, hvalues⟩ := (Json.fields_iff members names xs).mp hxs
    split at h
    · next iss aud sub exp expMs iat jti user =>
      have hone : ∀ name ∈ names, ∀ x, some x = (Json.under members name).head? →
          Json.under members name = [x] :=
        fun name hname x hx => (Json.head_under members name x (honce name hname)).mp hx.symm
      simp only [names, List.map_cons, List.map_nil, List.cons.injEq] at hvalues
      obtain ⟨hiss, haud, hsub, hexp, hexpMs, hiat, hjti, rfl, _⟩ := hvalues
      obtain ⟨user, huser, h⟩ := Option.bind_eq_some_iff.mp h
      obtain ⟨issuer, hissuer, h⟩ := Option.bind_eq_some_iff.mp h
      obtain ⟨audience, haudience, h⟩ := Option.bind_eq_some_iff.mp h
      obtain ⟨subject, hsubject, h⟩ := Option.bind_eq_some_iff.mp h
      obtain ⟨expirySeconds, hexpirySeconds, h⟩ := Option.bind_eq_some_iff.mp h
      obtain ⟨expireTime, hexpireTime, h⟩ := Option.bind_eq_some_iff.mp h
      obtain ⟨issuedAt, hissuedAt, h⟩ := Option.bind_eq_some_iff.mp h
      obtain ⟨id, hid, h⟩ := Option.bind_eq_some_iff.mp h
      cases h
      exact
        { readable := hreadable
          issuer := ⟨iss, hone _ (by simp [names]) iss hiss, hissuer⟩
          audience := ⟨aud, hone _ (by simp [names]) aud haud, haudience⟩
          subject := ⟨sub, hone _ (by simp [names]) sub hsub, hsubject⟩
          expirySeconds := ⟨exp, hone _ (by simp [names]) exp hexp, hexpirySeconds⟩
          expireTime := ⟨expMs, hone _ (by simp [names]) expMs hexpMs, hexpireTime⟩
          issuedAt := ⟨iat, hone _ (by simp [names]) iat hiat, hissuedAt⟩
          id := ⟨jti, hone _ (by simp [names]) jti hjti, hid⟩
          user := (user_told_iff members user (honce _ (by simp [names]))).mp huser }
    · cases h
  · intro h
    obtain ⟨iss, hiss, hissuer⟩ := h.issuer
    obtain ⟨aud, haud, haudience⟩ := h.audience
    obtain ⟨sub, hsub, hsubject⟩ := h.subject
    obtain ⟨exp, hexp, hexpirySeconds⟩ := h.expirySeconds
    obtain ⟨expMs, hexpMs, hexpireTime⟩ := h.expireTime
    obtain ⟨iat, hiat, hissuedAt⟩ := h.issuedAt
    obtain ⟨jti, hjti, hid⟩ := h.id
    have hone := user_told_once members c.user h.user
    have huser := (user_told_iff members c.user hone).mpr h.user
    have hfields : (Node.object members).fields? names =
        some [some iss, some aud, some sub, some exp, some expMs, some iat, some jti,
          (Json.under members "user").head?] := by
      rw [Json.fields_iff]
      refine ⟨⟨h.readable, ?_⟩, ?_⟩
      · simp [names, hiss, haud, hsub, hexp, hexpMs, hiat, hjti, hone]
      · simp [names, hiss, haud, hsub, hexp, hexpMs, hiat, hjti]
    simp [ofMembers?, hfields, huser, hissuer, haudience, hsubject, hexpirySeconds, hexpireTime,
      hissuedAt, hid]

theorem idle_iff (honce : (Json.under members "nbf").length ≤ 1) :
    isIdle (Json.under members "nbf").head? = true ↔ PassesBound members := by
  cases hx : (Json.under members "nbf").head? with
  | none => exact iff_of_true rfl (Or.inl ((Json.head_under_none members "nbf").mp hx))
  | some x =>
    have hone := (Json.head_under members "nbf" x honce).mp hx
    rw [PassesBound, hone]
    simp [isIdle]

theorem passes_once (h : PassesBound members) : (Json.under members "nbf").length ≤ 1 := by
  rcases h with h | ⟨x, h, _⟩
  · simp [h]
  · simp [h]

theorem of_text_iff (text : List Char) (c : Claims) :
    ofText? text = some c ↔ ∃ members, Node.ofText? text = some (.object members) ∧
      Told members c ∧ PassesBound members := by
  constructor
  · intro h
    obtain ⟨x, hx, h⟩ := Option.bind_eq_some_iff.mp h
    split at h
    · next members =>
      obtain ⟨xs, hxs, h⟩ := Option.bind_eq_some_iff.mp h
      obtain ⟨⟨_, honce⟩, rfl⟩ := (Json.fields_iff members ["nbf"] xs).mp hxs
      simp only [List.map_cons, List.map_nil, Option.ite_none_right_eq_some] at h
      exact ⟨members, hx, (of_members_iff members c).mp h.2,
        (idle_iff members (honce "nbf" (by simp))).mp h.1⟩
    · cases h
  · rintro ⟨members, hx, htold, hbound⟩
    have honce := passes_once members hbound
    have hfields : (Node.object members).fields? ["nbf"] =
        some [(Json.under members "nbf").head?] := by
      rw [Json.fields_iff]
      exact ⟨⟨htold.readable, by simpa using honce⟩, rfl⟩
    simp [ofText?, hx, hfields, (idle_iff members honce).mpr hbound,
      (of_members_iff members c).mpr htold]

end Claims

/-! ## Headers -/

namespace Token.Header

structure Names (name : String) : Prop where
  readable : ∀ m ∈ members, (Json.textOfParts? m.1).isSome = true
  once : ∀ known ∈ knownMembers, (Json.under members known).length ≤ 1
  algorithm : Json.Tells members "alg" algorithmName? name
  known : name ∈ algorithms
  key : isOptionalKey (Json.under members "jwk").head? = true
  lists : ∀ known ∈ listMembers, isOptionalTexts (Json.under members known).head? = true
  texts : ∀ known ∈ textMembers, isOptionalText (Json.under members known).head? = true
  extras : ∀ m ∈ members, (∃ known ∈ knownMembers, Json.textOfParts? m.1 = some known) ∨
    m.2.text?.isSome = true

theorem algorithm_of_fielded (h : Json.Fielded members knownMembers) :
    algorithmOf? (.object members) =
      (Json.under members "alg").head?.bind fun alg => (algorithmName? alg).bind fun name =>
        if algorithms.contains name && isOptionalKey (Json.under members "jwk").head? &&
            (listMembers.all fun known => isOptionalTexts (Json.under members known).head?) &&
            (textMembers.all fun known => isOptionalText (Json.under members known).head?) &&
            (members.all fun m =>
              (Json.textOfParts? m.1).any knownMembers.contains || m.2.text?.isSome)
        then some name else none := by
  have hfields := (Json.fields_iff members knownMembers _).mpr ⟨h, rfl⟩
  have hknown : (knownMembers.map fun known => (Json.under members known).head?) =
      (Json.under members "alg").head? :: (Json.under members "jwk").head? ::
        ((listMembers.map fun known => (Json.under members known).head?) ++
          textMembers.map fun known => (Json.under members known).head?) := by
    simp [knownMembers]
  rw [hknown] at hfields
  rw [algorithmOf?, hfields]
  cases (Json.under members "alg").head? with
  | none => rfl
  | some alg =>
    simp only [Option.bind_eq_bind, Option.bind_some]
    rw [List.take_left' (List.length_map _), List.drop_left' (List.length_map _), List.all_map,
      List.all_map]
    rfl

theorem algorithm_of_iff (x : Node) (name : String) :
    algorithmOf? x = some name ↔ ∃ members, x = .object members ∧ Names members name := by
  constructor
  · intro h
    have hobject : ∃ members, x = .object members := by
      cases x with
      | object members => exact ⟨members, rfl⟩
      | array items =>
        obtain ⟨xs, _, h⟩ := Option.bind_eq_some_iff.mp h
        cases h
      | _ => exact absurd h (by simp [algorithmOf?, Node.fields?])
    obtain ⟨members, rfl⟩ := hobject
    obtain ⟨xs, hxs, _⟩ := Option.bind_eq_some_iff.mp h
    have hfielded := ((Json.fields_iff members knownMembers xs).mp hxs).1
    rw [algorithm_of_fielded members hfielded] at h
    obtain ⟨alg, halg, h⟩ := Option.bind_eq_some_iff.mp h
    obtain ⟨named, hname, h⟩ := Option.bind_eq_some_iff.mp h
    obtain ⟨hall, hsame⟩ := Option.ite_none_right_eq_some.mp h
    obtain rfl : named = name := Option.some.inj hsame
    simp only [Bool.and_eq_true, List.all_eq_true, Bool.or_eq_true, Option.any_eq_true,
      List.contains_iff_mem] at hall
    obtain ⟨⟨⟨⟨hknown, hkey⟩, hlists⟩, htexts⟩, hextras⟩ := hall
    have honce := hfielded.once "alg" (by simp [knownMembers])
    exact ⟨members, rfl,
      { readable := hfielded.readable
        once := hfielded.once
        algorithm := ⟨alg, (Json.head_under members "alg" alg honce).mp halg, hname⟩
        known := hknown
        key := hkey
        lists := hlists
        texts := htexts
        extras := fun m hm => (hextras m hm).imp_left fun ⟨n, hn, hmem⟩ => ⟨n, hmem, hn⟩ }⟩
  · rintro ⟨members, rfl, h⟩
    obtain ⟨alg, halg, hname⟩ := h.algorithm
    have hextras : ∀ m ∈ members, (∃ n, Json.textOfParts? m.1 = some n ∧ n ∈ knownMembers) ∨
        m.2.text?.isSome = true :=
      fun m hm => (h.extras m hm).imp_left fun ⟨n, hmem, hn⟩ => ⟨n, hn, hmem⟩
    rw [algorithm_of_fielded members ⟨h.readable, h.once⟩, halg, List.head?_cons, Option.bind_some,
      hname, Option.bind_some, if_pos]
    simp only [Bool.and_eq_true, List.all_eq_true, Bool.or_eq_true, Option.any_eq_true,
      List.contains_iff_mem]
    exact ⟨⟨⟨⟨h.known, h.key⟩, h.lists⟩, h.texts⟩, hextras⟩

end Token.Header

end Countersign
