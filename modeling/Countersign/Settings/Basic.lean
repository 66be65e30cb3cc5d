import Countersign.Files
import Countersign.Log.Policy
import Countersign.Policy.Basic
import Countersign.Settings.Coercion
import Countersign.Settings.Environment
import Countersign.Settings.Error
import Countersign.Settings.Format
import Countersign.Token.Policy

/-!
# Settings

All policies together. They are loaded from a file, over which the environment lays
its own values. What neither of them says keeps its default.
-/

set_option autoImplicit false

namespace Countersign

structure Settings where
  signature : Policy := {}
  token : TokenPolicy := {}
  logging : LogPolicy := {}
deriving DecidableEq, Repr

def Setting.field? {α : Type} (default : α) (f : Setting → Option α) : Option Setting → Option α
  | none => some default
  | some x => f x

def Policy.ofSetting? (x : Setting) : Option Policy := do
  match ← x.fields? fieldNames with
  | [stem, window, paths, production, limit, protection, capacity] =>
    let d : Policy := {}
    let stem ← Setting.field? d.stem Setting.toText? stem
    let window ← Setting.field? d.windowSecs Setting.toUInt64? window
    let paths ← Setting.field? d.allowPaths Setting.toTexts? paths
    let production ← Setting.field? d.production Setting.toBool? production
    let limit ← Setting.field? d.maxBodyBytes Setting.toUInt64? limit
    let protection ← Setting.field? d.replayProtection Setting.toBool? protection
    let capacity ← Setting.field? d.replayCapacity Setting.toUInt64? capacity
    return ⟨stem, window, paths, production, limit, protection, capacity⟩
  | _ => none

def TokenPolicy.ofSetting? (x : Setting) : Option TokenPolicy := do
  match ← x.fields? fieldNames with
  | [issuer, audience, access, refresh, privatePath, publicPath] =>
    let d : TokenPolicy := {}
    let issuer ← Setting.field? d.issuer Setting.toText? issuer
    let audience ← Setting.field? d.audience Setting.toText? audience
    let access ← Setting.field? d.accessSecs Setting.toUInt64? access
    let refresh ← Setting.field? d.refreshSecs Setting.toUInt64? refresh
    let privatePath ← Setting.field? none Setting.toOptionalText? privatePath
    let publicPath ← Setting.field? none Setting.toOptionalText? publicPath
    return ⟨issuer, audience, access, refresh, privatePath, publicPath⟩
  | _ => none

def LogPolicy.ofSetting? (x : Setting) : Option LogPolicy := do
  match ← x.fields? fieldNames with
  | [level, structured] =>
    let d : LogPolicy := {}
    let level ← Setting.field? d.level Setting.toText? level
    let structured ← Setting.field? d.structured Setting.toBool? structured
    return ⟨level, structured⟩
  | _ => none

namespace Settings

def defaultStem : String := "KEYSTAMP"

def fieldNames : List String := ["signature", "token", "logging"]

def ofSetting? (x : Setting) : Option Settings := do
  match ← x.fields? fieldNames with
  | [signature, token, logging] =>
    let d : Settings := {}
    let signature ← Setting.field? d.signature Policy.ofSetting? signature
    let token ← Setting.field? d.token TokenPolicy.ofSetting? token
    let logging ← Setting.field? d.logging LogPolicy.ofSetting? logging
    return ⟨signature, token, logging⟩
  | _ => none

def toJson (s : Settings) : Json :=
  .object
    [("signature", s.signature.toJson), ("token", s.token.toJson), ("logging", s.logging.toJson)]

def tree (file environment : List (String × Setting)) : Setting :=
  ((Setting.table []).layer file).layer environment

/-- Loads settings from a file and from the variables with the given stem. That there is a file comes
first, then its name, then what it says. -/
def load (files : Files) (path stem : String) (vars : List (String × String)) :
    Except SettingsError Settings := do
  if !files.pathExists path then throw (.notFound path)
  let some format := SettingsFormat.ofPath? path | throw .unsupportedFormat
  let some contents := (files.read path).toOption | throw .unreadable
  let some entries := format.entries? contents | throw .unreadable
  let some settings := ofSetting? (tree entries (Environment.settings stem vars))
    | throw .unreadable
  return settings

end Settings

end Countersign
