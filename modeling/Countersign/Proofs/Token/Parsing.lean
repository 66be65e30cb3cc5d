import Countersign.Proofs.Token.Contents
import Countersign.Proofs.Token.Usability

/-!
# What a text is read as

A mint reads a text as the token that it presents, and then the time of the token
decides; every other text is refused as no token. A text presents at most one
kind of token, and the times that it tells in seconds decide nothing.
-/

set_option autoImplicit false

namespace Countersign

open Json (Node StringPart)

namespace Mint

theorem or_flaw_ok {α : Type} (flaw : Flaw) (o : Option α) (x : α) :
    orFlaw flaw o = .ok x ↔ o = some x := by
  cases o with
  | none =>
    constructor
    · intro h
      cases h
    · intro h
      cases h
  | some y => rw [or_flaw_some, Except.ok.injEq, Option.some.injEq]

theorem bytes_of_iff (cs : List Char) (b : Bytes) : bytesOf cs = .ok b ↔ cs = part b := by
  rw [bytesOf, or_flaw_ok, Base64.decode_iff Base64.url_safe_lawful, part, eq_comm]

/-- A text of three parts, with a header that names the algorithm of all tokens and a signature over
the first two parts with their dot. -/
structure Signed (keys : KeyPair) (value : String) (header payload signature : Bytes) : Prop where
  parts : value.toList = part header ++ '.' :: (part payload ++ '.' :: part signature)
  named : ∃ cs members, Utf8.decode? header = some cs ∧ Node.ofText? cs = some (.object members) ∧
    Token.Header.Names members Token.Header.algorithm
  genuine : ∃ k, keys.verifying = some k ∧
    k.verify (Utf8.encode (part header ++ '.' :: part payload)) signature = true

theorem algorithm_of_iff (cs : List Char) (name : String) :
    algorithmOf cs = .ok name ↔ ∃ header text members, cs = part header ∧
      Utf8.decode? header = some text ∧ Node.ofText? text = some (.object members) ∧
      Token.Header.Names members name := by
  constructor
  · intro h
    obtain ⟨header, hheader, h⟩ := (Outcome.bind_ok _ _ _).mp h
    obtain ⟨text, htext, h⟩ := Option.bind_eq_some_iff.mp ((or_flaw_ok _ _ _).mp h)
    obtain ⟨x, hx, h⟩ := Option.bind_eq_some_iff.mp h
    obtain ⟨members, rfl, hnames⟩ := (Token.Header.algorithm_of_iff x name).mp h
    exact ⟨header, text, members, (bytes_of_iff cs header).mp hheader, htext, hx, hnames⟩
  · rintro ⟨header, text, members, hcs, htext, hx, hnames⟩
    refine (Outcome.bind_ok _ _ _).mpr ⟨header, (bytes_of_iff cs header).mpr hcs, ?_⟩
    rw [or_flaw_ok, htext, Option.bind_some, hx, Option.bind_some, Token.Header.algorithm_of_iff]
    exact ⟨members, rfl, hnames⟩

theorem verified_signed (keys : KeyPair) (value : String) (header payload signature : Bytes)
    (h : Signed keys value header payload signature) :
    verifiedClaims keys value = orFlaw .notJson (Claims.ofBytes? payload) := by
  obtain ⟨htext, ⟨text, named, hnamed⟩, hgenuine⟩ := h
  have hlast : splitLast? value.toList =
      some (part header ++ '.' :: part payload, part signature) := by
    rw [htext, split_last_iff, List.append_assoc, List.cons_append]
    exact ⟨rfl, part_dot_free signature⟩
  have hfirst := split_last (part header) (part payload) (part_dot_free payload)
  have hname := (algorithm_of_iff (part header) _).mpr ⟨header, text, named, rfl, hnamed⟩
  have hany : keys.verifying.any (fun k =>
      k.verify (Utf8.encode (part header ++ '.' :: part payload)) signature) = true := by
    rw [Option.any_eq_true]
    exact hgenuine
  simp only [verifiedClaims, hlast, hfirst, or_flaw_some, hname, bytes_of_part, hany, bind,
    Except.bind, ne_eq, not_true_eq_false, if_false, Bool.not_true, Bool.false_eq_true]

theorem verified_iff (keys : KeyPair) (value : String) (c : Claims) :
    verifiedClaims keys value = .ok c ↔ ∃ header payload signature members,
      Signed keys value header payload signature ∧
        Node.ofText? (Claims.textOf payload) = some (.object members) ∧
        Claims.Told members c ∧ Claims.PassesBound members := by
  constructor
  · intro h
    obtain ⟨⟨message, tail⟩, hlast, h⟩ := (Outcome.bind_ok _ _ _).mp h
    obtain ⟨⟨front, middle⟩, hfirst, h⟩ := (Outcome.bind_ok _ _ _).mp h
    obtain ⟨name, hname, h⟩ := (Outcome.bind_ok _ _ _).mp h
    obtain ⟨hsame, h⟩ := (Outcome.unless_ok _ _ _ _).mp h
    obtain ⟨signature, hsignature, h⟩ := (Outcome.bind_ok _ _ _).mp h
    obtain ⟨hgenuine, h⟩ := (Outcome.unless_ok _ _ _ _).mp h
    obtain ⟨payload, hpayload, h⟩ := (Outcome.bind_ok _ _ _).mp h
    obtain ⟨htext, _⟩ := (split_last_iff _ _ _).mp ((or_flaw_ok _ _ _).mp hlast)
    obtain ⟨hmessage, _⟩ := (split_last_iff _ _ _).mp ((or_flaw_ok _ _ _).mp hfirst)
    obtain ⟨header, text, named, hfront, hnamed⟩ := (algorithm_of_iff front name).mp hname
    obtain ⟨members, hmembers⟩ := (Claims.of_text_iff _ c).mp ((or_flaw_ok _ _ _).mp h)
    obtain rfl : name = Token.Header.algorithm := Classical.not_not.mp hsame
    rw [bytes_of_iff] at hsignature hpayload
    rw [hfront, hpayload] at hmessage
    rw [hmessage, hsignature, List.append_assoc, List.cons_append] at htext
    rw [Bool.not_eq_true', Bool.not_eq_false, Option.any_eq_true, hmessage] at hgenuine
    exact ⟨header, payload, signature, members, ⟨htext, ⟨text, named, hnamed⟩, hgenuine⟩, hmembers⟩
  · rintro ⟨header, payload, signature, members, hsigned, hmembers⟩
    rw [verified_signed keys value header payload signature hsigned, or_flaw_ok]
    exact (Claims.of_text_iff _ c).mpr ⟨members, hmembers⟩

/-! ## Texts and the tokens that they present -/

/-- A text presents claims: it is signed and tells them, and they are of this issuer, for this
audience and of this kind. -/
structure Presents (m : Mint) (kind : TokenKind) (value : String)
    (members : List (List StringPart × Node)) (c : Claims) : Prop where
  signed : ∃ header payload signature, Signed m.keys value header payload signature ∧
    Node.ofText? (Claims.textOf payload) = some (.object members)
  told : Claims.Told members c
  issuer : c.issuer = m.policy.issuer
  audience : c.audience = m.policy.audience
  expiry : 0 ≤ c.expirySeconds
  user : c.user.isSome = true ↔ kind = .access

variable (m : Mint)

def Accepts (kind : TokenKind) (value : String) (c : Claims) : Prop :=
  ∃ members, m.Presents kind value members c ∧ Claims.PassesBound members

theorem genuine_iff (value : String) (c : Claims) : m.genuineClaims value = .ok c ↔
    verifiedClaims m.keys value = .ok c ∧ 0 ≤ c.expirySeconds ∧ c.issuer = m.policy.issuer ∧
      c.audience = m.policy.audience := by
  constructor
  · intro h
    obtain ⟨d, hd, h⟩ := (Outcome.bind_ok _ _ _).mp h
    obtain ⟨hexpiry, h⟩ := (Outcome.unless_ok _ _ _ _).mp h
    obtain ⟨hissuer, h⟩ := (Outcome.unless_ok _ _ _ _).mp h
    obtain ⟨haudience, h⟩ := (Outcome.unless_ok _ _ _ _).mp h
    obtain rfl := (Outcome.pure_ok _ _).mp h
    exact ⟨hd, Int64.not_lt.mp hexpiry, Classical.not_not.mp hissuer,
      Classical.not_not.mp haudience⟩
  · rintro ⟨hc, hexpiry, hissuer, haudience⟩
    exact genuine_claims m value c hc (Int64.not_lt.mpr hexpiry) hissuer haudience

theorem kind_iff (kind : TokenKind) (value : String) (c : Claims) :
    kind = (c.token value).kind ↔ (c.user.isSome = true ↔ kind = .access) := by
  cases kind <;> cases hu : c.user <;>
    simp [Claims.token, Token.kind, Token.isRefresh, hu]

theorem accepts_iff (kind : TokenKind) (value : String) (c : Claims) :
    m.Accepts kind value c ↔ m.genuineClaims value = .ok c ∧ kind = (c.token value).kind := by
  rw [genuine_iff, verified_iff, kind_iff]
  constructor
  · rintro ⟨members, ⟨⟨header, payload, signature, hsigned, hread⟩, told, issuer, audience, expiry,
      user⟩, hbound⟩
    exact ⟨⟨⟨header, payload, signature, members, hsigned, hread, told, hbound⟩, expiry, issuer,
      audience⟩, user⟩
  · rintro ⟨⟨⟨header, payload, signature, members, hsigned, hread, told, hbound⟩, expiry, issuer,
      audience⟩, user⟩
    exact ⟨members, ⟨⟨header, payload, signature, hsigned, hread⟩, told, issuer, audience, expiry,
      user⟩, hbound⟩

theorem decode_iff (kind : TokenKind) (value : String) (t : Token) :
    m.decode kind value = .ok t ↔ ∃ c, m.Accepts kind value c ∧ t = c.token value := by
  constructor
  · intro h
    obtain ⟨c, hc, rfl⟩ := decode_value m kind value t h
    rw [decode_genuine m value c hc] at h
    by_cases hkind : kind = (c.token value).kind
    · exact ⟨c, (m.accepts_iff kind value c).mpr ⟨hc, hkind⟩, rfl⟩
    · rw [if_neg hkind] at h
      cases h
  · rintro ⟨c, h, rfl⟩
    obtain ⟨hc, hkind⟩ := (m.accepts_iff kind value c).mp h
    rw [decode_genuine m value c hc, if_pos hkind]

theorem accepts_unique (kind other : TokenKind) (value : String) (c d : Claims)
    (hc : m.Accepts kind value c) (hd : m.Accepts other value d) : c = d ∧ kind = other := by
  obtain ⟨hread, hkind⟩ := (m.accepts_iff kind value c).mp hc
  obtain ⟨hother, hd⟩ := (m.accepts_iff other value d).mp hd
  obtain rfl : c = d := Except.ok.inj (hread.symm.trans hother)
  exact ⟨rfl, hkind.trans hd.symm⟩

def read (now : Millis) (kind : TokenKind) (checked : Bool) (value : String) :
    Except TokenError Token :=
  if checked then (m.parse now kind value).mapError TokenFailure.error
  else (m.decode kind value).mapError Flaw.error

theorem decode_flawed (kind : TokenKind) (value : String) (flaw : Flaw)
    (h : verifiedClaims m.keys value = .error flaw) : m.decode kind value = .error flaw := by
  have hgenuine : m.genuineClaims value = .error flaw :=
    (Outcome.bind_error _ _ _).mpr (Or.inl h)
  exact (Outcome.bind_error _ _ _).mpr (Or.inl hgenuine)

theorem read_flawed (now : Millis) (kind : TokenKind) (checked : Bool) (value : String)
    (flaw : Flaw) (h : m.decode kind value = .error flaw) :
    m.read now kind checked value = .error (.invalidToken flaw.message) := by
  cases checked <;> simp only [read, parse, h] <;> rfl

theorem read_accepted (now : Millis) (kind : TokenKind) (checked : Bool) (value : String)
    (c : Claims) (hc : m.Accepts kind value c) : m.read now kind checked value =
      if checked = true ∧ c.expireTime ≤ now then .error .expired else .ok (c.token value) := by
  have hdecode := (m.decode_iff kind value (c.token value)).mpr ⟨c, hc, rfl⟩
  cases checked with
  | false =>
    rw [if_neg fun h => Bool.false_ne_true h.1]
    simp only [read, hdecode]
    rfl
  | true =>
    by_cases hover : c.expireTime ≤ now
    · rw [if_pos ⟨rfl, hover⟩]
      simp only [read, if_true, parse, hdecode, Claims.token, if_pos hover]
      rfl
    · rw [if_neg fun h => hover h.2]
      simp only [read, if_true, parse, hdecode, Claims.token, if_neg hover]
      rfl

theorem read_refused (now : Millis) (kind : TokenKind) (checked : Bool) (value : String)
    (h : ¬∃ c, m.Accepts kind value c) :
    ∃ why, m.read now kind checked value = .error (.invalidToken why) := by
  cases hdecode : m.decode kind value with
  | error flaw => exact ⟨flaw.message, m.read_flawed now kind checked value flaw hdecode⟩
  | ok t =>
    obtain ⟨c, hc, _⟩ := (m.decode_iff kind value t).mp hdecode
    exact absurd ⟨c, hc⟩ h

theorem read_invalid (now : Millis) (kind : TokenKind) (checked : Bool) (value : String) :
    (∃ why, m.read now kind checked value = .error (.invalidToken why)) ↔
      ¬∃ c, m.Accepts kind value c := by
  constructor
  · rintro ⟨why, h⟩ ⟨c, hc⟩
    rw [m.read_accepted now kind checked value c hc] at h
    split at h <;> cases h
  · exact m.read_refused now kind checked value

theorem read_expired (now : Millis) (kind : TokenKind) (checked : Bool) (value : String) :
    m.read now kind checked value = .error .expired ↔
      checked = true ∧ ∃ c, m.Accepts kind value c ∧ c.expireTime ≤ now := by
  constructor
  · intro h
    by_cases hany : ∃ c, m.Accepts kind value c
    · obtain ⟨c, hc⟩ := hany
      rw [m.read_accepted now kind checked value c hc] at h
      split at h
      · next hover => exact ⟨hover.1, c, hc, hover.2⟩
      · cases h
    · obtain ⟨why, hread⟩ := m.read_refused now kind checked value hany
      rw [h] at hread
      cases hread
  · rintro ⟨hchecked, c, hc, hover⟩
    rw [m.read_accepted now kind checked value c hc, if_pos ⟨hchecked, hover⟩]

theorem read_token (now : Millis) (kind : TokenKind) (checked : Bool) (value : String) (t : Token) :
    m.read now kind checked value = .ok t ↔ ∃ c, m.Accepts kind value c ∧
      (checked = true → now < c.expireTime) ∧ t = c.token value := by
  constructor
  · intro h
    by_cases hany : ∃ c, m.Accepts kind value c
    · obtain ⟨c, hc⟩ := hany
      rw [m.read_accepted now kind checked value c hc] at h
      split at h
      · cases h
      · next hlive =>
        cases h
        exact ⟨c, hc, fun hchecked => Int64.not_le.mp fun hover => hlive ⟨hchecked, hover⟩, rfl⟩
    · obtain ⟨why, hread⟩ := m.read_refused now kind checked value hany
      rw [h] at hread
      cases hread
  · rintro ⟨c, hc, hlive, rfl⟩
    rw [m.read_accepted now kind checked value c hc, if_neg]
    rintro ⟨hchecked, hover⟩
    exact Int64.not_le.mpr (hlive hchecked) hover

/-- The exact outcome of reading a text, for every issuer, audience and key, at every reading of the
clock: no token unless the text presents claims of the wanted kind, and then the time that they tell
in milliseconds decides. The two kinds exclude each other; a text is past its time only if it is a
token apart from that; and what is told in seconds decides nothing about it. -/
theorem outcome_exact (now : Millis) (kind : TokenKind) (checked : Bool) (value : String) :
    ((∃ why, m.read now kind checked value = .error (.invalidToken why)) ↔
      ¬∃ c, m.Accepts kind value c) ∧
    (m.read now kind checked value = .error .expired ↔
      checked = true ∧ ∃ c, m.Accepts kind value c ∧ c.expireTime ≤ now) ∧
    (∀ t, m.read now kind checked value = .ok t ↔ ∃ c, m.Accepts kind value c ∧
      (checked = true → now < c.expireTime) ∧
        t = ⟨c.id, value, c.subject, c.user, c.expireTime⟩) ∧
    (∀ later other t u, m.read now .access checked value = .ok t →
      m.read later .refresh other value ≠ .ok u) ∧
    (m.read now kind checked value = .error .expired →
      ∃ t, m.read now kind false value = .ok t) ∧
    (∀ text c d, m.Accepts kind value c → m.Accepts kind text d → c.expireTime = d.expireTime →
      (m.read now kind checked value = .error .expired ↔
        m.read now kind checked text = .error .expired)) := by
  refine ⟨m.read_invalid now kind checked value, m.read_expired now kind checked value,
    m.read_token now kind checked value, ?_, ?_, ?_⟩
  · intro later other t u haccess hrefresh
    obtain ⟨c, hc, _⟩ := (m.read_token now .access checked value t).mp haccess
    obtain ⟨d, hd, _⟩ := (m.read_token later .refresh other value u).mp hrefresh
    cases (m.accepts_unique .access .refresh value c d hc hd).2
  · intro h
    obtain ⟨_, c, hc, _⟩ := (m.read_expired now kind checked value).mp h
    refine ⟨c.token value, (m.read_token now kind false value _).mpr ⟨c, hc, ?_, rfl⟩⟩
    exact fun h => absurd h Bool.false_ne_true
  · intro text c d hc hd htime
    rw [m.read_accepted now kind checked value c hc, m.read_accepted now kind checked text d hd,
      htime]
    split <;> simp

/-! ## A bound that no reader gets past -/

open Registry (sampleMint sampleNumbers)

def boundedHeader : Bytes := Utf8.encode Token.Header.common.print

def boundedPayload : Bytes :=
  Utf8.ofString ("\x7b\"iss\":\"keystamp\",\"aud\":\"keystamp\",\"sub\":\"42\",\"exp\":2," ++
    "\"exp_ms\":2000,\"iat\":1,\"jti\":\"id\",\"nbf\":[1]\x7d")

def boundedMessage : List Char := part boundedHeader ++ '.' :: part boundedPayload

def boundedSignature : Bytes :=
  ((sampleMint.keys.signing.bind fun k => (k.sign (Utf8.encode boundedMessage)).toOption).getD [])

def boundedToken : String := String.ofList (boundedMessage ++ '.' :: part boundedSignature)

def boundedClaims : Claims where
  issuer := "keystamp"
  audience := "keystamp"
  subject := "42"
  expirySeconds := 2
  expireTime := 2000
  issuedAt := 1
  id := "id"

theorem bounded_signs : (sampleMint.keys.signing.bind fun k =>
    (k.sign (Utf8.encode boundedMessage)).toOption).isSome = true := by
  decide +kernel

theorem bounded_signed :
    Signed sampleMint.keys boundedToken boundedHeader boundedPayload boundedSignature := by
  obtain ⟨header, text, members, hpart, hnamed⟩ :=
    (algorithm_of_iff (part boundedHeader) _).mp header_algorithm
  obtain rfl : boundedHeader = header :=
    Except.ok.inj ((bytes_of_part _).symm.trans ((bytes_of_iff _ _).mpr hpart))
  obtain ⟨k, v, hk, hv, hhalf⟩ : ∃ k v, sampleMint.keys.signing = some k ∧
      sampleMint.keys.verifying = some v ∧ v.toPublicNumbers = k.toPublicNumbers :=
    ⟨_, _, rfl, rfl, rfl⟩
  have hsign : k.sign (Utf8.encode boundedMessage) = .ok boundedSignature := by
    have hsigns := bounded_signs
    rw [hk, Option.bind_some] at hsigns
    rw [boundedSignature, hk, Option.bind_some]
    cases h : k.sign (Utf8.encode boundedMessage) with
    | error e =>
      rw [h] at hsigns
      cases hsigns
    | ok signature => rfl
  refine ⟨?_, ⟨text, members, hnamed⟩, v, hv, ?_⟩
  · rw [boundedToken, String.toList_ofList, boundedMessage, List.append_assoc, List.cons_append]
  · rw [VerifyingKey.verify, hhalf]
    exact Rsa.sign_verify _ _ _ _ _ _ hsign

theorem bounded_told : ∃ members, Node.ofText? (Claims.textOf boundedPayload) =
    some (.object members) ∧ Claims.Told members boundedClaims := by
  have hfields : ((Node.ofText? (Claims.textOf boundedPayload)).bind fun x =>
      x.members?.bind fun members => (Claims.ofMembers? members).map fun c =>
        ((c.issuer, c.audience, c.subject, c.id), (c.expirySeconds, c.expireTime, c.issuedAt),
          c.user.isNone)) = some (("keystamp", "keystamp", "42", "id"), (2, 2000, 1), true) := by
    decide +kernel
  obtain ⟨x, hx, hfields⟩ := Option.bind_eq_some_iff.mp hfields
  obtain ⟨members, hmembers, hfields⟩ := Option.bind_eq_some_iff.mp hfields
  obtain ⟨c, hc, hfields⟩ := Option.map_eq_some_iff.mp hfields
  obtain rfl := (Json.members_iff members x).mp hmembers
  obtain ⟨issuer, audience, subject, expirySeconds, expireTime, issuedAt, id, user⟩ := c
  simp only [Prod.mk.injEq, Option.isNone_iff_eq_none] at hfields
  obtain ⟨⟨rfl, rfl, rfl, rfl⟩, ⟨rfl, rfl, rfl⟩, rfl⟩ := hfields
  exact ⟨members, hx, (Claims.of_members_iff members _).mp hc⟩

/-- A text that presents claims before their time is over, and is no token all the same. -/
theorem bounded_refused :
    (∃ members, sampleMint.Presents .refresh boundedToken members boundedClaims) ∧
    (1000 : Millis) < boundedClaims.expireTime ∧
    sampleMint.read 1000 .refresh true boundedToken = .error (.invalidToken "JSON error") := by
  refine ⟨?_, by decide, ?_⟩
  · obtain ⟨members, hread, htold⟩ := bounded_told
    exact ⟨members,
      { signed := ⟨_, _, _, bounded_signed, hread⟩
        told := htold
        issuer := rfl
        audience := rfl
        expiry := by decide
        user := by decide }⟩
  · have hread : Claims.ofBytes? boundedPayload = none := by
      rw [← Option.isNone_iff_eq_none]
      decide +kernel
    have hverified := verified_signed _ _ _ _ _ bounded_signed
    rw [hread] at hverified
    exact read_flawed sampleMint 1000 .refresh true boundedToken .notJson
      (decode_flawed sampleMint .refresh boundedToken .notJson hverified)

end Mint

end Countersign
