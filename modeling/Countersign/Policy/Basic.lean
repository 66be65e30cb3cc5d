import Countersign.Policy.AllowList
import Countersign.Policy.HeaderNames
import Countersign.Json.Reader
import Countersign.Time.Duration

/-!
# Signature policies

What signer and verifier are configured with: the prefix of the header names,
how far a timestamp may be off, which paths are open, whether rejections explain
themselves, how long a signed body may be, and whether nonces are remembered.
-/

set_option autoImplicit false

namespace Countersign

structure Policy where
  stem : String := HeaderNames.defaultStem
  windowSecs : UInt64 := 300
  allowPaths : List String := []
  production : Bool := true
  maxBodyBytes : UInt64 := 10485760
  replayProtection : Bool := true
  replayCapacity : UInt64 := 100000
deriving DecidableEq, Repr

namespace Policy

def development : Policy := { production := false }

/-- The policy with another window; parts of a second are dropped. -/
def withWindow (p : Policy) (window : Duration) : Policy := { p with windowSecs := window.secs }

def allowPath (p : Policy) (pattern : String) : Policy :=
  { p with allowPaths := p.allowPaths ++ [pattern] }

def window (p : Policy) : Duration := Duration.ofSecs p.windowSecs

/-- How long a nonce is remembered: as long as its timestamp can be accepted, on either side. -/
def replayTtl (p : Policy) : Duration := p.window.double

def allows (p : Policy) (path : String) : Bool := AllowList.allows p.allowPaths path

def headerNames (p : Policy) : Except SignatureError HeaderNames := HeaderNames.ofStem p.stem

def fieldNames : List String :=
  ["header_prefix", "timestamp_window_secs", "allow_paths", "production", "max_body_bytes",
   "replay_protection", "replay_cache_capacity"]

def ofNode? (x : Json.Node) : Option Policy := do
  match ← x.fields? fieldNames with
  | [stem, window, paths, production, limit, protection, capacity] =>
    let d : Policy := {}
    let stem ← Json.field? d.stem (·.text?) stem
    let window ← Json.field? d.windowSecs (·.uint64?) window
    let paths ← Json.field? d.allowPaths (fun x => do (← x.list?).mapM (·.text?)) paths
    let production ← Json.field? d.production (·.bool?) production
    let limit ← Json.field? d.maxBodyBytes (·.uint64?) limit
    let protection ← Json.field? d.replayProtection (·.bool?) protection
    let capacity ← Json.field? d.replayCapacity (·.uint64?) capacity
    return ⟨stem, window, paths, production, limit, protection, capacity⟩
  | _ => none

def ofText? (text : String) : Option Policy := do ofNode? (← Json.Node.ofText? text.toList)

def toJson (p : Policy) : Json :=
  .object
    [("header_prefix", .string p.stem), ("timestamp_window_secs", .ofUInt64 p.windowSecs),
     ("allow_paths", .array (p.allowPaths.map .string)), ("production", .bool p.production),
     ("max_body_bytes", .ofUInt64 p.maxBodyBytes), ("replay_protection", .bool p.replayProtection),
     ("replay_cache_capacity", .ofUInt64 p.replayCapacity)]

end Policy

end Countersign
