import Countersign.Binding.Store
import Countersign.Http.Url
import Countersign.Text.Integer

/-!
# Addresses of shared servers

A server is named by a URL with a host, or by the path of a socket. Connections
under encryption are not offered. A text that names no server makes no client; one
that does may still lead nowhere.
-/

set_option autoImplicit false

namespace Countersign.Binding

open Http.Url (hostAndPort isPort isIPv6 tidy)

inductive Address where
  | host (name : String) (port : Option String)
  | socket (path : String)
deriving DecidableEq, Repr

namespace Address

def hostSchemes : List String := ["redis", "valkey"]

def socketSchemes : List String := ["redis+unix", "valkey+unix", "unix"]

def isForbidden (c : Char) : Bool := c = '\x00' || " #/:<>?@[\\]^|".toList.contains c

def isHost (cs : List Char) : Bool :=
  match cs with
  | '[' :: r => r.getLast? = some ']' && isIPv6 r.dropLast
  | _ => cs ≠ [] && !cs.any isForbidden

def isReadable (cs : List Char) : Bool := (Utf8.decode? (Percent.decode (Utf8.encode cs))).isSome

def isDatabase (path : List Char) : Bool :=
  let name := Text.trimBy (· = '/') path
  name = [] || (Text.int64? name).isSome

def queryValues (name query : List Char) : List (List Char) :=
  (query.splitOn '&').filterMap fun p =>
    match (Text.splitOnce '=' p).getD (p, []) with
    | (k, v) => if k = name then some v else none

def isProtocol (query : List Char) : Bool :=
  match (queryValues "protocol".toList query).getLast? with
  | none => true
  | some v => ["2", "3", "resp2", "resp3"].contains (String.ofList v)

def isDatabaseQuery (query : List Char) : Bool :=
  match (queryValues "db".toList query).getLast? with
  | none => true
  | some v => (Text.int64? v).isSome

def endsAuthority (c : Char) : Bool := c = '/' || c = '?' || c = '#'

def split (cs : List Char) : Option (List Char) × List Char × List Char :=
  let (authority, r) : Option (List Char) × List Char :=
    match cs with
    | '/' :: '/' :: r => (some (r.takeWhile (!endsAuthority ·)), r.dropWhile (!endsAuthority ·))
    | _ => (none, cs)
  let r := r.takeWhile (· ≠ '#')
  (authority, r.takeWhile (· ≠ '?'), (r.dropWhile (· ≠ '?')).drop 1)

def ofAuthority? (authority path query : List Char) : Option Address :=
  let hostPart := Http.Url.withoutUser authority
  let userPart := authority.take (authority.length - hostPart.length)
  let (name, port) := hostAndPort hostPart
  if isReadable userPart && isHost name && isPort port && isDatabase path && isProtocol query then
    some (.host (String.ofList name) (port.map String.ofList))
  else none

def ofUrl? (url : String) : Option Address := do
  let (scheme, r) ← Text.splitOnce ':' (tidy url.toList)
  let scheme := String.ofList (scheme.map Char.toLower)
  let (authority, path, query) := split r
  if hostSchemes.contains scheme then ofAuthority? (← authority) path query
  else if socketSchemes.contains scheme then
    let authority := authority.getD []
    if (authority = [] || authority = "localhost".toList) && path.head? = some '/' &&
        isDatabaseQuery query && isProtocol query then some (.socket (String.ofList path))
    else none
  else none

end Address

def connect (url : String) (reachable : Bool) : Except StoreFailure Address :=
  match Address.ofUrl? url with
  | none => .error (.unavailable "Failed to create Redis client")
  | some a => if reachable then .ok a else .error (.unavailable "Failed to connect to Redis")

end Countersign.Binding
