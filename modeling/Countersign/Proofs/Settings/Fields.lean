import Countersign.Settings.Basic
import Mathlib.Data.List.Basic

/-!
# Single settings

All settings are flat inside their part: each has a name there and a kind of value.
Reading the whole is reading each of them, from its place or from nowhere, so settings
are compared one by one.
-/

set_option autoImplicit false

namespace Countersign.Settings

inductive Kind where
  | text
  | optionalText
  | number
  | flag
  | texts
deriving DecidableEq, Repr

abbrev Kind.Carrier : Kind → Type
  | text => String
  | optionalText => Option String
  | number => UInt64
  | flag => Bool
  | texts => List String

def Kind.read : (k : Kind) → Setting → Option k.Carrier
  | text => Setting.toText?
  | optionalText => Setting.toOptionalText?
  | number => Setting.toUInt64?
  | flag => Setting.toBool?
  | texts => Setting.toTexts?

inductive Part where
  | signature
  | token
  | logging
deriving DecidableEq, Repr

namespace Part

def title : Part → String
  | signature => "signature"
  | token => "token"
  | logging => "logging"

def names : Part → List String
  | signature => Policy.fieldNames
  | token => TokenPolicy.fieldNames
  | logging => LogPolicy.fieldNames

theorem title_injective (p q : Part) (h : p.title = q.title) : p = q := by
  cases p <;> cases q <;> first | rfl | exact absurd h (by decide)

theorem names_signature : signature.names = Policy.fieldNames := rfl

theorem names_token : token.names = TokenPolicy.fieldNames := rfl

theorem names_logging : logging.names = LogPolicy.fieldNames := rfl

/-- What a part says under a name. As a list it has the values in the order of the names. -/
def value? (p : Part) (name : String) : Setting → Option Setting
  | .table es => es.lookup name
  | .list xs => xs[p.names.idxOf name]?
  | _ => none

def tree (p : Part) (x : Setting) : Setting := (x.get? p.title).getD (.table [])

end Part

inductive Field where
  | headerPrefix
  | windowSecs
  | allowPaths
  | production
  | maxBodyBytes
  | replayProtection
  | replayCapacity
  | issuer
  | audience
  | accessSecs
  | refreshSecs
  | privateKeyPath
  | publicKeyPath
  | level
  | structured
deriving DecidableEq, Repr

namespace Field

def part : Field → Part
  | headerPrefix | windowSecs | allowPaths | production | maxBodyBytes | replayProtection
  | replayCapacity => .signature
  | issuer | audience | accessSecs | refreshSecs | privateKeyPath | publicKeyPath => .token
  | level | structured => .logging

def name : Field → String
  | headerPrefix => "header_prefix"
  | windowSecs => "timestamp_window_secs"
  | allowPaths => "allow_paths"
  | production => "production"
  | maxBodyBytes => "max_body_bytes"
  | replayProtection => "replay_protection"
  | replayCapacity => "replay_cache_capacity"
  | issuer => "issuer"
  | audience => "audience"
  | accessSecs => "effective_time_secs"
  | refreshSecs => "refresh_effective_time_secs"
  | privateKeyPath => "private_key_path"
  | publicKeyPath => "public_key_path"
  | level => "level"
  | structured => "structured"

def kind : Field → Kind
  | headerPrefix | issuer | audience | level => .text
  | privateKeyPath | publicKeyPath => .optionalText
  | windowSecs | maxBodyBytes | replayCapacity | accessSecs | refreshSecs => .number
  | production | replayProtection | structured => .flag
  | allowPaths => .texts

def get (s : Settings) : (f : Field) → f.kind.Carrier
  | headerPrefix => s.signature.stem
  | windowSecs => s.signature.windowSecs
  | allowPaths => s.signature.allowPaths
  | production => s.signature.production
  | maxBodyBytes => s.signature.maxBodyBytes
  | replayProtection => s.signature.replayProtection
  | replayCapacity => s.signature.replayCapacity
  | issuer => s.token.issuer
  | audience => s.token.audience
  | accessSecs => s.token.accessSecs
  | refreshSecs => s.token.refreshSecs
  | privateKeyPath => s.token.privateKeyPath
  | publicKeyPath => s.token.publicKeyPath
  | level => s.logging.level
  | structured => s.logging.structured

def reads (f : Field) : Option Setting → Option f.kind.Carrier :=
  Setting.field? (f.get {}) f.kind.read

def given? (x : Setting) (f : Field) : Option Setting :=
  f.part.value? f.name (f.part.tree x)

def all : List Field :=
  [headerPrefix, windowSecs, allowPaths, production, maxBodyBytes, replayProtection,
   replayCapacity, issuer, audience, accessSecs, refreshSecs, privateKeyPath, publicKeyPath, level,
   structured]

theorem found_by_name (f : Field) : all.find? (fun g => g.name = f.name) = some f := by
  cases f <;> decide +kernel

theorem name_injective (f g : Field) (h : f.name = g.name) : f = g := by
  have hfound := found_by_name f
  rw [h, found_by_name g] at hfound
  exact (Option.some.inj hfound).symm

end Field

def ofValues (v : (f : Field) → f.kind.Carrier) : Settings where
  signature :=
    ⟨v .headerPrefix, v .windowSecs, v .allowPaths, v .production, v .maxBodyBytes,
      v .replayProtection, v .replayCapacity⟩
  token :=
    ⟨v .issuer, v .audience, v .accessSecs, v .refreshSecs, v .privateKeyPath, v .publicKeyPath⟩
  logging := ⟨v .level, v .structured⟩

theorem get_of_values (v : (f : Field) → f.kind.Carrier) (f : Field) :
    f.get (ofValues v) = v f := by
  cases f <;> rfl

/-! ## Reading a part -/

def IsPart : Setting → Prop
  | .table _ => True
  | .list _ => True
  | _ => False

theorem by_place (names : List String) (hnames : names.Nodup) (xs : List Setting) :
    (List.range names.length).map (fun i => xs[i]?) =
      names.map fun name => xs[names.idxOf name]? := by
  apply List.ext_getElem (by simp)
  intro i hi _
  have hlt : i < names.length := by simpa using hi
  simp only [List.getElem_map, List.getElem_range, hnames.idxOf_getElem i hlt]

theorem fields_of_part (p : Part) (x : Setting) (hx : IsPart x) :
    x.fields? p.names = some (p.names.map fun name => p.value? name x) := by
  have hnames : p.names.Nodup := by cases p <;> decide
  cases x with
  | table es => rfl
  | list xs => rw [Setting.fields?, by_place p.names hnames]; rfl
  | _ => cases hx

theorem fields_of_other (p : Part) (x : Setting) (hx : ¬ IsPart x) : x.fields? p.names = none := by
  cases x with
  | table es => exact absurd trivial hx
  | list xs => exact absurd trivial hx
  | _ => rfl

/-! ## Reading settings -/

theorem policy_iff (x : Setting) (s : Settings) :
    Policy.ofSetting? x = some s.signature ↔
      IsPart x ∧ ∀ f : Field, f.part = .signature →
        f.reads (Part.signature.value? f.name x) = some (f.get s) := by
  by_cases hx : IsPart x
  · rw [Policy.ofSetting?, ← Part.names_signature, fields_of_part .signature x hx]
    simp only [Part.names, Policy.fieldNames, List.map_cons, List.map_nil, Option.bind_eq_bind,
      Option.bind_some, Option.bind_eq_some_iff]
    constructor
    · rintro ⟨_, hstem, _, hwindow, _, hpaths, _, hproduction, _, hlimit, _, hprotection, _,
        hcapacity, hs⟩
      obtain ⟨signature, token, logging⟩ := s
      obtain rfl := Option.some.inj hs
      refine ⟨hx, fun f hf => ?_⟩
      cases f <;> first | assumption | cases hf
    · rintro ⟨_, h⟩
      exact ⟨_, h .headerPrefix rfl, _, h .windowSecs rfl, _, h .allowPaths rfl, _,
        h .production rfl, _, h .maxBodyBytes rfl, _, h .replayProtection rfl, _,
        h .replayCapacity rfl, rfl⟩
  · rw [Policy.ofSetting?, ← Part.names_signature, fields_of_other .signature x hx]
    exact iff_of_false (by simp) fun h => hx h.1

theorem token_policy_iff (x : Setting) (s : Settings) :
    TokenPolicy.ofSetting? x = some s.token ↔
      IsPart x ∧ ∀ f : Field, f.part = .token →
        f.reads (Part.token.value? f.name x) = some (f.get s) := by
  by_cases hx : IsPart x
  · rw [TokenPolicy.ofSetting?, ← Part.names_token, fields_of_part .token x hx]
    simp only [Part.names, TokenPolicy.fieldNames, List.map_cons, List.map_nil,
      Option.bind_eq_bind, Option.bind_some, Option.bind_eq_some_iff]
    constructor
    · rintro ⟨_, hissuer, _, haudience, _, haccess, _, hrefresh, _, hprivate, _, hpublic, hs⟩
      obtain ⟨signature, token, logging⟩ := s
      obtain rfl := Option.some.inj hs
      refine ⟨hx, fun f hf => ?_⟩
      cases f <;> first | assumption | cases hf
    · rintro ⟨_, h⟩
      exact ⟨_, h .issuer rfl, _, h .audience rfl, _, h .accessSecs rfl, _, h .refreshSecs rfl, _,
        h .privateKeyPath rfl, _, h .publicKeyPath rfl, rfl⟩
  · rw [TokenPolicy.ofSetting?, ← Part.names_token, fields_of_other .token x hx]
    exact iff_of_false (by simp) fun h => hx h.1

theorem log_policy_iff (x : Setting) (s : Settings) :
    LogPolicy.ofSetting? x = some s.logging ↔
      IsPart x ∧ ∀ f : Field, f.part = .logging →
        f.reads (Part.logging.value? f.name x) = some (f.get s) := by
  by_cases hx : IsPart x
  · rw [LogPolicy.ofSetting?, ← Part.names_logging, fields_of_part .logging x hx]
    simp only [Part.names, LogPolicy.fieldNames, List.map_cons, List.map_nil,
      Option.bind_eq_bind, Option.bind_some, Option.bind_eq_some_iff]
    constructor
    · rintro ⟨_, hlevel, _, hstructured, hs⟩
      obtain ⟨signature, token, logging⟩ := s
      obtain rfl := Option.some.inj hs
      refine ⟨hx, fun f hf => ?_⟩
      cases f <;> first | assumption | cases hf
    · rintro ⟨_, h⟩
      exact ⟨_, h .level rfl, _, h .structured rfl, rfl⟩
  · rw [LogPolicy.ofSetting?, ← Part.names_logging, fields_of_other .logging x hx]
    exact iff_of_false (by simp) fun h => hx h.1

theorem part_or_default (x : Setting) :
    Setting.field? ({} : Settings).signature Policy.ofSetting? (x.get? Part.signature.title) =
        Policy.ofSetting? (Part.signature.tree x) ∧
      Setting.field? ({} : Settings).token TokenPolicy.ofSetting? (x.get? Part.token.title) =
        TokenPolicy.ofSetting? (Part.token.tree x) ∧
      Setting.field? ({} : Settings).logging LogPolicy.ofSetting? (x.get? Part.logging.title) =
        LogPolicy.ofSetting? (Part.logging.tree x) := by
  simp only [Part.tree]
  refine ⟨?_, ?_, ?_⟩
  · cases x.get? Part.signature.title <;> rfl
  · cases x.get? Part.token.title <;> rfl
  · cases x.get? Part.logging.title <;> rfl

/-- A table is read as settings when each part is a table or a list and each setting is read, from
its place or from nowhere. -/
theorem of_setting_iff (es : List (String × Setting)) (s : Settings) :
    ofSetting? (.table es) = some s ↔
      (∀ p : Part, IsPart (p.tree (.table es))) ∧
        ∀ f : Field, f.reads (f.given? (.table es)) = some (f.get s) := by
  obtain ⟨hsignature, htoken, hlogging⟩ := part_or_default (.table es)
  have hread : ofSetting? (.table es) = some s ↔
      Policy.ofSetting? (Part.signature.tree (.table es)) = some s.signature ∧
        TokenPolicy.ofSetting? (Part.token.tree (.table es)) = some s.token ∧
        LogPolicy.ofSetting? (Part.logging.tree (.table es)) = some s.logging := by
    rw [← hsignature, ← htoken, ← hlogging]
    simp only [ofSetting?, fieldNames, Setting.fields?, List.map_cons, List.map_nil,
      Option.bind_eq_bind, Option.bind_some, Option.bind_eq_some_iff]
    constructor
    · rintro ⟨_, hsignature, _, htoken, _, hlogging, hs⟩
      obtain rfl := Option.some.inj hs
      exact ⟨hsignature, htoken, hlogging⟩
    · rintro ⟨hsignature, htoken, hlogging⟩
      exact ⟨_, hsignature, _, htoken, _, hlogging, rfl⟩
  rw [hread, policy_iff, token_policy_iff, log_policy_iff]
  constructor
  · rintro ⟨⟨hsignature, hs⟩, ⟨htoken, ht⟩, ⟨hlogging, hl⟩⟩
    refine ⟨fun p => by cases p <;> assumption, fun f => ?_⟩
    cases hf : f.part with
    | signature => simpa only [Field.given?, hf] using hs f hf
    | token => simpa only [Field.given?, hf] using ht f hf
    | logging => simpa only [Field.given?, hf] using hl f hf
  · rintro ⟨hparts, hfields⟩
    refine ⟨⟨hparts _, ?_⟩, ⟨hparts _, ?_⟩, ⟨hparts _, ?_⟩⟩
    all_goals
      intro f hf
      simpa only [Field.given?, hf] using hfields f

theorem of_setting_values (es : List (String × Setting)) (v : (f : Field) → f.kind.Carrier)
    (hparts : ∀ p : Part, IsPart (p.tree (.table es)))
    (h : ∀ f : Field, f.reads (f.given? (.table es)) = some (v f)) :
    ofSetting? (.table es) = some (ofValues v) :=
  (of_setting_iff es _).mpr ⟨hparts, fun f => (h f).trans (congrArg some (get_of_values v f).symm)⟩

end Countersign.Settings
