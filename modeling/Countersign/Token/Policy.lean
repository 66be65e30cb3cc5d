import Countersign.Json.Reader
import Countersign.Time.Duration

/-!
# Token policies

What tokens are issued with: names of issuer and audience, how long access and
refresh tokens live, and where the key files are.
-/

set_option autoImplicit false

namespace Countersign

structure TokenPolicy where
  issuer : String := "keystamp"
  audience : String := "keystamp"
  accessSecs : UInt64 := 7200
  refreshSecs : UInt64 := 604800
  privateKeyPath : Option String := none
  publicKeyPath : Option String := none
deriving DecidableEq, Repr

namespace TokenPolicy

def issuedBy (p : TokenPolicy) (issuer audience : String) : TokenPolicy :=
  { p with issuer := issuer, audience := audience }

def withAccess (p : TokenPolicy) (ttl : Duration) : TokenPolicy := { p with accessSecs := ttl.secs }

def withRefresh (p : TokenPolicy) (ttl : Duration) : TokenPolicy := { p with refreshSecs := ttl.secs }

def accessTtl (p : TokenPolicy) : Duration := Duration.ofSecs p.accessSecs

def refreshTtl (p : TokenPolicy) : Duration := Duration.ofSecs p.refreshSecs

def fieldNames : List String :=
  ["issuer", "audience", "effective_time_secs", "refresh_effective_time_secs", "private_key_path",
   "public_key_path"]

def ofNode? (x : Json.Node) : Option TokenPolicy := do
  match ← x.fields? fieldNames with
  | [issuer, audience, access, refresh, privatePath, publicPath] =>
    let d : TokenPolicy := {}
    let issuer ← Json.field? d.issuer (·.text?) issuer
    let audience ← Json.field? d.audience (·.text?) audience
    let access ← Json.field? d.accessSecs (·.uint64?) access
    let refresh ← Json.field? d.refreshSecs (·.uint64?) refresh
    let privatePath ← Json.field? none (Json.Node.nullable? (·.text?)) privatePath
    let publicPath ← Json.field? none (Json.Node.nullable? (·.text?)) publicPath
    return ⟨issuer, audience, access, refresh, privatePath, publicPath⟩
  | _ => none

def ofText? (text : String) : Option TokenPolicy := do ofNode? (← Json.Node.ofText? text.toList)

def optionalText : Option String → Json
  | none => .null
  | some s => .string s

def toJson (p : TokenPolicy) : Json :=
  .object
    [("issuer", .string p.issuer), ("audience", .string p.audience),
     ("effective_time_secs", .ofUInt64 p.accessSecs),
     ("refresh_effective_time_secs", .ofUInt64 p.refreshSecs),
     ("private_key_path", optionalText p.privateKeyPath),
     ("public_key_path", optionalText p.publicKeyPath)]

end TokenPolicy

end Countersign
