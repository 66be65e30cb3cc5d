import Countersign.Encoding.Percent
import Countersign.Http.Target
import Countersign.Text.Blank

/-!
# Web addresses

The target of an absolute address with a host. The address is read leniently, as
browsers read it: blanks around it and line breaks inside it do not count,
backslashes are slashes, dot segments are resolved, and what a path or a query
may not hold is escaped. User, port and fragment do not enter the target, but a
host or a port that cannot be makes the address none.
-/

set_option autoImplicit false

namespace Countersign.Http.Url

def schemes : List (List Char) :=
  ["http".toList, "https".toList, "ws".toList, "wss".toList, "ftp".toList]

def tidy (cs : List Char) : List Char :=
  (Text.trimBy (·.toNat ≤ 0x20) cs).filter fun c => c ≠ '\t' && c ≠ '\n' && c ≠ '\r'

def isSlash (c : Char) : Bool := c = '/' || c = '\\'

def afterScheme? (cs : List Char) : Option (List Char) := do
  let (scheme, r) ← Text.splitOnce ':' cs
  if scheme.map Char.toLower ∈ schemes then some (r.dropWhile isSlash) else none

def endsAuthority (c : Char) : Bool := isSlash c || c = '?' || c = '#'

def withoutUser (authority : List Char) : List Char :=
  (authority.reverse.takeWhile (· ≠ '@')).reverse

def hostAndPort (cs : List Char) : List Char × Option (List Char) :=
  match cs with
  | '[' :: r =>
    let host := '[' :: r.takeWhile (· ≠ ']') ++ (r.dropWhile (· ≠ ']')).take 1
    match cs.drop host.length with
    | [] => (host, none)
    | ':' :: port => (host, some port)
    | rest => (host ++ rest, none)
  | _ => ((Text.splitOnce ':' cs).map fun p => (p.1, some p.2)).getD (cs, none)

def isPort : Option (List Char) → Bool
  | none => true
  | some [] => true
  | some cs =>
    cs.all Char.isDigit && (cs.foldl (fun n c => min 65536 (n * 10 + (c.toNat - 48))) 0) < 65536

def isForbidden (c : Char) : Bool :=
  c.toNat ≤ 0x20 || c.toNat = 0x7f || "#/:<>?@[\\]^|%".toList.contains c

/-- A number in an address of four parts: decimal, octal after a zero, or hexadecimal after `0x`. -/
def hostNumber? (cs : List Char) : Option Nat :=
  let digits (base : Nat) (cs : List Char) : Option Nat :=
    cs.foldlM (fun n c => do
      let v ← Hex.value? c
      if v < base then some (n * base + v) else none) 0
  match cs with
  | [] => none
  | '0' :: 'x' :: r => digits 16 r
  | '0' :: 'X' :: r => digits 16 r
  | '0' :: r => digits 8 r
  | cs => digits 10 cs

def labels (host : List Char) : List (List Char) :=
  let parts := host.splitOn '.'
  if parts.getLast? = some [] then parts.dropLast else parts

def endsInNumber (host : List Char) : Bool :=
  match (labels host).getLast? with
  | none => false
  | some l =>
    (l ≠ [] && l.all Char.isDigit) ||
      (l.take 2 ∈ [['0', 'x'], ['0', 'X']] && (hostNumber? l).isSome)

/-- An address of up to four numbers, the last of which fills the bytes that are left. -/
def isIPv4 (host : List Char) : Bool :=
  match (labels host).mapM hostNumber? with
  | none => false
  | some ns =>
    match ns.reverse with
    | [] => false
    | last :: rest => rest.length < 4 && rest.all (· < 256) && last < Nat.pow 256 (4 - rest.length)

/-- The groups between colons; the last one may be an address of four decimal bytes, which counts
twice. -/
def groupCount? (parts : List (List Char)) : Option Nat :=
  match parts with
  | [] => some 0
  | [p] =>
    let bytes := p.splitOn '.'
    let isByte (b : List Char) : Bool :=
      1 ≤ b.length && b.length ≤ 3 && b.all Char.isDigit && (b.length = 1 || b.head? ≠ some '0') &&
        b.foldl (fun n c => n * 10 + (c.toNat - 48)) 0 < 256
    if bytes.length = 4 && bytes.all isByte then some 2
    else if 1 ≤ p.length && p.length ≤ 4 && p.all (fun c => (Hex.value? c).isSome) then some 1
    else none
  | p :: r =>
    if 1 ≤ p.length && p.length ≤ 4 && p.all (fun c => (Hex.value? c).isSome) then
      (groupCount? r).map (· + 1)
    else none

def splitGap : List Char → Option (List Char × List Char)
  | ':' :: ':' :: r => some ([], r)
  | c :: r => (splitGap r).map fun p => (c :: p.1, p.2)
  | [] => none

/-- An address of eight groups; two colons stand for one or more groups of zeros. -/
def isIPv6 (cs : List Char) : Bool :=
  let groups (cs : List Char) : Option Nat := if cs = [] then some 0 else groupCount? (cs.splitOn ':')
  match splitGap cs with
  | none => groups cs = some 8
  | some (before, after) =>
    match groups before, groups after with
    | some m, some n => m + n ≤ 7 && !before.contains '.'
    | _, _ => false

def isHost (cs : List Char) : Bool :=
  match cs with
  | '[' :: r => r.getLast? = some ']' && isIPv6 r.dropLast
  | _ =>
    let name := Utf8.decodeLossy (Percent.decode (Utf8.encode cs))
    name ≠ [] && !name.any isForbidden && !name.contains Utf8.replacement &&
      (!endsInNumber name || isIPv4 name)

def isDot (s : List Char) : Bool := s.map Char.toLower ∈ [".".toList, "%2e".toList]

def isDoubleDot (s : List Char) : Bool :=
  s.map Char.toLower ∈ ["..".toList, ".%2e".toList, "%2e.".toList, "%2e%2e".toList]

/-- Resolves dot segments behind the segments of `stack`, the last one first. A dot segment at the
end leaves an empty segment. -/
def resolve (stack : List (List Char)) : List (List Char) → List (List Char)
  | [] => stack.reverse
  | [s] =>
    if isDoubleDot s then ([] :: stack.tail).reverse
    else if isDot s then ([] :: stack).reverse
    else (s :: stack).reverse
  | s :: r =>
    if isDoubleDot s then resolve stack.tail r
    else if isDot s then resolve stack r
    else resolve (s :: stack) r

def escapedInPath (b : UInt8) : Bool :=
  Percent.isControl b || (" \"#<>?^`\x7b\x7d".toList.map fun c => c.toUInt8).contains b

def escapedInQuery (b : UInt8) : Bool :=
  Percent.isControl b || (" \"#<>'".toList.map fun c => c.toUInt8).contains b

def path (raw : List Char) : List Char :=
  let cs := (raw.drop 1).map fun c => if c = '\\' then '/' else c
  let segments := resolve [] (cs.splitOn '/')
  segments.flatMap fun s => '/' :: Percent.encode escapedInPath (Utf8.encode s)

def query (raw : List Char) : List Char := Percent.encode escapedInQuery (Utf8.encode raw)

def target? (s : String) : Option Target := do
  let r ← afterScheme? (tidy s.toList)
  let (host, port) := hostAndPort (withoutUser (r.takeWhile (!endsAuthority ·)))
  if !isHost host || !isPort port then none
  let r := (r.dropWhile (!endsAuthority ·)).takeWhile (· ≠ '#')
  let rawPath := r.takeWhile (· ≠ '?')
  match r.dropWhile (· ≠ '?') with
  | [] => Target.ofParts? (path rawPath) none
  | _ :: q => Target.ofParts? (path rawPath) (some (query q))

end Countersign.Http.Url
