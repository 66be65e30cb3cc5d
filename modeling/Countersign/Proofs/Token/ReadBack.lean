import Countersign.Proofs.Token.ClaimsText
import Countersign.Proofs.Token.Parsing

/-!
# Tokens read back

A mint with two halves of one key reads back each token that it issues, until its
time is over, however the issuer, the audience, the user and the attributes are
written. The one thing that is lost is an attribute that is nested as deep as the
reader of a user goes: among the claims the user stands one object deeper, and the
reader of claims goes no deeper for it, while the writer knows no such bound.
-/

set_option autoImplicit false

namespace Countersign

def KeyPair.Matching (keys : KeyPair) : Prop :=
  ∃ k v, keys.signing = some k ∧ keys.verifying = some v ∧ v.toPublicNumbers = k.toPublicNumbers

namespace Mint

variable (m : Mint)

/-- What is read of an issued text differs from the token at most in the user, be the keys halves of one
or not. -/
theorem decode_issued (now : Millis) (seed : Nonce) (subject : String) (user : Option User)
    (ttl : Duration) (t u : Token) (kind : TokenKind)
    (hissue : m.issue now seed subject user ttl = .ok t) (h : m.decode kind t.value = .ok u) :
    u = { t with user := u.user } := by
  obtain ⟨k, _, hwrite⟩ := m.issue_written now seed subject user ttl t hissue
  obtain ⟨signature, _, hvalue⟩ := (Outcome.bind_ok _ _ _).mp hwrite
  have hvalue := congrArg String.toList ((Outcome.pure_ok _ _).mp hvalue)
  obtain ⟨c, hgenuine, hu⟩ := m.decode_value kind t.value u h
  obtain ⟨header, payload, tail, members, hsigned, hread, htold, hbound⟩ :=
    (verified_iff _ _ _).mp ((m.genuine_iff _ _).mp hgenuine).1
  have hparts := hsigned.parts
  rw [← hvalue, String.toList_ofList, ← List.cons_append, ← List.append_assoc] at hparts
  have hlast := split_last (signedParts (m.claims now seed subject user ttl)) (part signature)
    (part_dot_free signature)
  rw [hparts, split_last _ _ (part_dot_free tail)] at hlast
  have hfirst := split_last (part (Utf8.encode Token.Header.common.print))
    (part (Utf8.encode (m.claims now seed subject user ttl).toJson.print)) (part_dot_free _)
  have hmessage := (Prod.mk.inj (Option.some.inj hlast)).1
  rw [signedParts] at hmessage
  rw [← hmessage, split_last _ _ (part_dot_free payload)] at hfirst
  have hpayload := congrArg bytesOf (Prod.mk.inj (Option.some.inj hfirst)).2
  rw [bytes_of_part, bytes_of_part] at hpayload
  rw [Except.ok.inj hpayload] at hread
  have hsame := Claims.told_same _ c ((Claims.of_text_iff _ c).mpr ⟨members, hread, htold, hbound⟩)
  rw [hu, m.issue_token now seed subject user ttl t hissue, hsame]
  rfl

theorem verified_matching (hkeys : m.keys.Matching) (now : Millis) (seed : Nonce)
    (subject : String) (user : Option User) (ttl : Duration) (t : Token)
    (hissue : m.issue now seed subject user ttl = .ok t)
    (hreadable : (m.claims now seed subject user ttl).Readable) : verifiedClaims m.keys t.value =
      orFlaw .notJson (if 124 < (m.claims now seed subject user ttl).depth then none
        else some (m.claims now seed subject user ttl)) := by
  obtain ⟨k, v, hsigning, hverifying, hhalf⟩ := hkeys
  rw [m.verified_issued k v hsigning hverifying hhalf now seed subject user ttl t hissue,
    Claims.of_bytes_written _ hreadable]

theorem genuine_matching (hkeys : m.keys.Matching) (now : Millis) (hnow : 0 ≤ now.toInt)
    (seed : Nonce) (subject : String) (user : Option User) (ttl : Duration) (t : Token)
    (hissue : m.issue now seed subject user ttl = .ok t)
    (hreadable : (m.claims now seed subject user ttl).Readable)
    (hdepth : (m.claims now seed subject user ttl).depth ≤ 124) :
    m.genuineClaims t.value = .ok (m.claims now seed subject user ttl) := by
  have hverified := m.verified_matching hkeys now seed subject user ttl t hissue hreadable
  rw [if_neg (Nat.not_lt.mpr hdepth)] at hverified
  exact m.genuine_issued t.value now seed subject user ttl hnow hverified

theorem read_issued (hkeys : m.keys.Matching) (now : Millis) (hnow : 0 ≤ now.toInt) (seed : Nonce)
    (subject : String) (user : Option User) (ttl : Duration) (t : Token)
    (hissue : m.issue now seed subject user ttl = .ok t)
    (hreadable : (m.claims now seed subject user ttl).Readable)
    (hdepth : (m.claims now seed subject user ttl).depth ≤ 124) (later : Millis) (kind : TokenKind)
    (checked : Bool) : m.read later kind checked t.value =
      if kind = t.kind then
        if checked = true ∧ t.expireTime ≤ later then .error .expired else .ok t
      else .error (wrongKind kind).error := by
  have htoken := m.issue_token now seed subject user ttl t hissue
  have hgenuine :=
    m.genuine_matching hkeys now hnow seed subject user ttl t hissue hreadable hdepth
  by_cases hkind : kind = t.kind
  · have haccepts : m.Accepts kind t.value (m.claims now seed subject user ttl) :=
      (m.accepts_iff kind t.value _).mpr ⟨hgenuine, by rw [← htoken]; exact hkind⟩
    have htime : (m.claims now seed subject user ttl).expireTime = t.expireTime := by
      rw [htoken]
      rfl
    rw [if_pos hkind, m.read_accepted later kind checked t.value _ haccepts, ← htoken, htime]
  · have hdecode := m.decode_genuine t.value _ hgenuine kind
    rw [← htoken, if_neg hkind] at hdecode
    rw [if_neg hkind]
    exact m.read_flawed later kind checked t.value (wrongKind kind) hdecode

theorem read_deep (hkeys : m.keys.Matching) (now : Millis) (seed : Nonce) (subject : String)
    (user : Option User) (ttl : Duration) (t : Token)
    (hissue : m.issue now seed subject user ttl = .ok t)
    (hreadable : (m.claims now seed subject user ttl).Readable)
    (hdepth : 124 < (m.claims now seed subject user ttl).depth) (later : Millis) (kind : TokenKind)
    (checked : Bool) : m.read later kind checked t.value = .error (.invalidToken "JSON error") := by
  have hverified := m.verified_matching hkeys now seed subject user ttl t hissue hreadable
  rw [if_pos hdepth] at hverified
  exact m.read_flawed later kind checked t.value .notJson
    (m.decode_flawed kind t.value .notJson hverified)

theorem issued_ok (subject : String) (now : Millis) (seed : Nonce) (user : Option User)
    (ttl : Duration) (h : (m.issue now seed subject user ttl).toOption.isSome = true) :
    ∃ t, m.issue now seed subject user ttl = .ok t := by
  cases hissue : m.issue now seed subject user ttl with
  | error e =>
    rw [hissue] at h
    cases h
  | ok t => exact ⟨t, rfl⟩

/-- A refresh token is read back by the mint that issued it until its time is over, and never as an
access token. -/
theorem refresh_read_back (hkeys : m.keys.Matching) (now : Millis) (hnow : 0 ≤ now.toInt)
    (seed : Nonce) (userId : String) (ttl : Option Duration) (t : Token)
    (hissue : m.issueRefresh now seed userId ttl = .ok t) :
    t.subject = userId ∧ t.user = none ∧
    (∀ later, m.read later .refresh true t.value =
      if t.expireTime ≤ later then .error .expired else .ok t) ∧
    (∀ later checked, m.read later .access checked t.value =
      .error (.invalidToken "missing user claim")) := by
  have htoken := m.issue_token now seed userId none _ t hissue
  have huser : t.user = none := by rw [htoken]; rfl
  have hkind : t.kind = .refresh := by rw [Token.kind, Token.isRefresh, huser]; rfl
  have hread := m.read_issued hkeys now hnow seed userId none _ t hissue
    (Claims.readable_none _ rfl) (Nat.zero_le _)
  rw [hkind] at hread
  refine ⟨by rw [htoken]; rfl, huser, ?_, ?_⟩
  · intro later
    rw [hread later .refresh true, if_pos rfl]
    simp only [true_and]
  · intro later checked
    rw [hread later .access checked, if_neg (by decide)]
    rfl

open Registry (sampleMint sampleSeed)

theorem sample_matching : sampleMint.keys.Matching := ⟨_, _, rfl, rfl, rfl⟩

/-- A text with all that is escaped when it is written, and characters of every width. -/
def oddText : String := "\"\\/\n\u0001\u007f\u00e9\u20ac😀"

def oddMint : Mint := { sampleMint with policy := { issuer := oddText, audience := "" } }

theorem odd_issues :
    (oddMint.issue 1000 sampleSeed oddText none (Duration.ofSecs 18446744073709551615)).toOption.isSome =
      true := by
  decide +kernel

theorem refresh_read_back_odd :
    ∃ t, oddMint.issueRefresh 1000 sampleSeed oddText
        (some (Duration.ofSecs 18446744073709551615)) = .ok t ∧
      oddMint.read 9223372036854775806 .refresh true t.value = .ok t ∧
      oddMint.read 9223372036854775807 .refresh true t.value = .error .expired ∧
      oddMint.read 1000 .access true t.value = .error (.invalidToken "missing user claim") := by
  obtain ⟨t, hissue⟩ := oddMint.issued_ok oddText 1000 sampleSeed none _ odd_issues
  have hexpire : t.expireTime = 9223372036854775807 := by
    rw [oddMint.issue_token _ _ _ _ _ _ hissue]
    show expiryOf 1000 (Duration.ofSecs 18446744073709551615) = 9223372036854775807
    decide
  obtain ⟨_, _, hrefresh, haccess⟩ := oddMint.refresh_read_back sample_matching 1000 (by decide)
    sampleSeed oddText (some (Duration.ofSecs 18446744073709551615)) t hissue
  refine ⟨t, hissue, ?_, ?_, haccess 1000 true⟩
  · rw [hrefresh, hexpire, if_neg (by decide)]
  · rw [hrefresh, hexpire, if_pos (by decide)]

/-- An access token of a user that was read is read back by the mint that issued it until its time is
over, save for the user whose attributes are nested as deep as the reader of users goes. -/
theorem access_read_back (hkeys : m.keys.Matching) (now : Millis) (hnow : 0 ≤ now.toInt)
    (seed : Nonce) (text : String) (u : User) (hu : User.ofText? text = some u) (hexact : u.Exact)
    (ttl : Option Duration) (t : Token) (hissue : m.issueAccess now seed u ttl = .ok t) :
    t.subject = u.id ∧ t.user = some u ∧ u.depth ≤ 125 ∧
    ∀ later, m.read later .access true t.value =
      if u.depth = 125 then .error (.invalidToken "JSON error")
      else if t.expireTime ≤ later then .error .expired else .ok t := by
  have htoken := m.issue_token now seed u.id (some u) _ t hissue
  have huser : t.user = some u := by rw [htoken]; rfl
  have hkind : t.kind = .access := by rw [Token.kind, Token.isRefresh, huser]; rfl
  obtain ⟨htidy, hdepth⟩ := User.of_text_given text u hu
  have hreadable : (m.claims now seed u.id (some u) (ttl.getD m.policy.accessTtl)).Readable :=
    Claims.readable_some _ u rfl hexact htidy
  refine ⟨by rw [htoken]; rfl, huser, hdepth, ?_⟩
  intro later
  by_cases hdeep : u.depth = 125
  · have hlost : 124 < (m.claims now seed u.id (some u) (ttl.getD m.policy.accessTtl)).depth := by
      change 124 < u.depth
      omega
    rw [if_pos hdeep]
    exact m.read_deep hkeys now seed u.id (some u) _ t hissue hreadable hlost later .access true
  · have hkept : (m.claims now seed u.id (some u) (ttl.getD m.policy.accessTtl)).depth ≤ 124 := by
      change u.depth ≤ 124
      omega
    rw [if_neg hdeep, m.read_issued hkeys now hnow seed u.id (some u) _ t hissue hreadable hkept,
      if_pos hkind.symm]
    simp only [true_and]

def nest : Nat → Json
  | 0 => .null
  | n + 1 => .array [nest n]

theorem nest_exact (n : Nat) : (nest n).Exact := by
  induction n with
  | zero => exact .null
  | succ n ih => exact .array _ (by simpa using ih)

theorem nest_tidy (n : Nat) : (nest n).Tidy := by
  induction n with
  | zero => exact .null
  | succ n ih => exact .array _ (by simpa using ih)

theorem nest_depth (n : Nat) : (nest n).depth = n := by
  induction n with
  | zero => rfl
  | succ n ih => rw [nest, Json.depth, Json.depths, Json.depths, ih, Nat.max_zero]

def limits : Json :=
  .object [("low", .number (.negative (-9223372036854775808))),
    ("high", .number (.natural 18446744073709551615)), (oddText, .string oddText)]

theorem limits_exact : limits.Exact := by
  refine .object _ fun m hm => ?_
  simp only [List.mem_cons, List.not_mem_nil, or_false] at hm
  rcases hm with rfl | rfl | rfl
  · exact .negative _
  · exact .natural _
  · exact .string _

theorem limits_tidy : limits.Tidy := by
  refine .object _ (by decide) fun m hm => ?_
  simp only [List.mem_cons, List.not_mem_nil, or_false] at hm
  rcases hm with rfl | rfl | rfl
  · exact .negative _ (by decide)
  · exact .natural _
  · exact .string _

def deepUser (n : Nat) : User where
  id := oddText
  name := "Zoë"
  attributes := ⟨[("deep", nest n), ("limits", limits)], List.pairwise_pair.mpr <| by
    show "deep" < "limits"
    decide⟩

theorem deep_user_exact (n : Nat) : (deepUser n).Exact := by
  intro e he
  rcases List.mem_cons.mp he with rfl | he
  · exact nest_exact n
  · exact List.mem_singleton.mp he ▸ limits_exact

theorem deep_user_tidy (n : Nat) : (deepUser n).Tidy := by
  intro e he
  rcases List.mem_cons.mp he with rfl | he
  · exact nest_tidy n
  · exact List.mem_singleton.mp he ▸ limits_tidy

theorem deep_user_depth (n : Nat) (h : 1 ≤ n) : (deepUser n).depth = n := by
  change max (nest n).depth 1 = n
  rw [nest_depth, Nat.max_eq_left h]

theorem deep_user_read (n : Nat) (hlow : 1 ≤ n) (hhigh : n ≤ 125) :
    User.ofText? (deepUser n).toJson.toText = some (deepUser n) :=
  (deepUser n).of_text_again (deep_user_exact n) (deep_user_tidy n)
    (by rwa [deep_user_depth n hlow])

theorem deep_issues :
    (oddMint.issue 1000 sampleSeed oddText (some (deepUser 124)) (Duration.ofSecs 1)).toOption.isSome =
      true := by
  decide +kernel

theorem access_read_back_deep :
    User.ofText? (deepUser 124).toJson.toText = some (deepUser 124) ∧
    ∃ t, oddMint.issueAccess 1000 sampleSeed (deepUser 124) (some (Duration.ofSecs 1)) = .ok t ∧
      t.user = some (deepUser 124) ∧ oddMint.read 1999 .access true t.value = .ok t ∧
      oddMint.read 2000 .access true t.value = .error .expired := by
  have hread := deep_user_read 124 (by decide) (by decide)
  obtain ⟨t, hissue⟩ := oddMint.issued_ok oddText 1000 sampleSeed (some (deepUser 124)) _ deep_issues
  have hexpire : t.expireTime = 2000 := by
    rw [oddMint.issue_token _ _ _ _ _ _ hissue]
    show expiryOf 1000 (Duration.ofSecs 1) = 2000
    decide
  have hdepth : (deepUser 124).depth ≠ 125 := by
    rw [deep_user_depth 124 (by decide)]
    decide
  obtain ⟨_, huser, _, haccess⟩ := oddMint.access_read_back sample_matching 1000 (by decide)
    sampleSeed _ (deepUser 124) hread (deep_user_exact 124) (some (Duration.ofSecs 1)) t hissue
  refine ⟨hread, t, hissue, huser, ?_, ?_⟩
  · rw [haccess, if_neg hdepth, hexpire, if_neg (by decide)]
  · rw [haccess, if_neg hdepth, hexpire, if_pos (by decide)]

theorem deeper_issues :
    (oddMint.issue 1000 sampleSeed oddText (some (deepUser 125)) (Duration.ofSecs 1)).toOption.isSome =
      true := by
  decide +kernel

/-- One level more, and the user is still read from a text of its own, but the token that is issued for
it is refused by its own mint before its time is over. -/
theorem deepest_user_lost :
    User.ofText? (deepUser 125).toJson.toText = some (deepUser 125) ∧ (deepUser 125).Exact ∧
    oddMint.keys.Matching ∧
    ∃ t, oddMint.issueAccess 1000 sampleSeed (deepUser 125) (some (Duration.ofSecs 1)) = .ok t ∧
      (1000 : Millis) < t.expireTime ∧
      oddMint.read 1000 .access true t.value = .error (.invalidToken "JSON error") := by
  obtain ⟨t, hissue⟩ := oddMint.issued_ok oddText 1000 sampleSeed (some (deepUser 125)) _ deeper_issues
  refine ⟨deep_user_read 125 (by decide) (by decide), deep_user_exact 125, sample_matching, t, hissue,
    ?_, ?_⟩
  · rw [oddMint.issue_token _ _ _ _ _ _ hissue]
    show (1000 : Millis) < expiryOf 1000 (Duration.ofSecs 1)
    decide
  · have hreadable : (oddMint.claims 1000 sampleSeed oddText (some (deepUser 125))
        (Duration.ofSecs 1)).Readable :=
      Claims.readable_some _ _ rfl (deep_user_exact 125) (deep_user_tidy 125)
    have hdeep : 124 < (oddMint.claims 1000 sampleSeed oddText (some (deepUser 125))
        (Duration.ofSecs 1)).depth := by
      change 124 < (deepUser 125).depth
      rw [deep_user_depth 125 (by decide)]
      decide
    exact oddMint.read_deep sample_matching 1000 sampleSeed oddText _ _ t hissue hreadable hdeep 1000
      .access true

end Mint

end Countersign
