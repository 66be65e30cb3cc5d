import Countersign.Encoding.Base64
import Countersign.Text.Blank
import Countersign.Text.Utf8

/-!
# PEM

A labelled block of Base64 between two boundary lines. Two readers: `strict?`
allows text before the block but none after it, and wants lines of sixty-four
characters; `lenient?` takes the first block of any text, whatever its lines.
-/

set_option autoImplicit false

namespace Countersign.Pem

def opening : List Char := "-----BEGIN ".toList
def closing : List Char := "-----END ".toList
def dashes : List Char := "-----".toList

def after? (start cs : List Char) : Option (List Char) :=
  if start.isPrefixOf cs then some (cs.drop start.length) else none

def before? (tail cs : List Char) : Option (List Char) :=
  if tail.isSuffixOf cs then some (cs.take (cs.length - tail.length)) else none

def afterBreak? : List Char → Option (List Char)
  | '\r' :: '\n' :: r => some r
  | '\n' :: r => some r
  | '\r' :: r => some r
  | _ => none

def beforeBreak? (cs : List Char) : Option (List Char) :=
  match cs.reverse with
  | '\n' :: '\r' :: r => some r.reverse
  | '\n' :: r => some r.reverse
  | '\r' :: r => some r.reverse
  | _ => none

def skipPreamble? : List Char → Option (List Char)
  | [] => none
  | c :: r =>
    if c = '\x00' then none
    else if c = '\n' ∧ opening.isPrefixOf r then some r
    else skipPreamble? r

/-- Joins lines of sixty-four characters; the last line may be shorter and may end in a break. -/
def joinLines? (fuel : Nat) (cs : List Char) : Option (List Char) :=
  match fuel with
  | 0 => none
  | fuel + 1 =>
    match cs.drop 64 with
    | [] => some ((beforeBreak? cs).getD cs)
    | rest => do
      let rest ← afterBreak? rest
      let more ← joinLines? fuel rest
      return cs.take 64 ++ more

/-- The bytes of the block with the given label. Text may stand before the block on lines of its
own, but nothing after it except one line break. -/
def strict? (label text : List Char) : Option Bytes := do
  let block ← if opening.isPrefixOf text then some text else skipPreamble? text
  let body ← after? (opening ++ label ++ dashes) block
  let body ← afterBreak? body
  let body ← before? (closing ++ label ++ dashes) ((beforeBreak? body).getD body)
  let body ← beforeBreak? body
  let body ← joinLines? (body.length + 1) body
  if body = [] then none
  Base64.decode? .standard body

def cut? (mark : List Char) : List Char → Option (List Char × List Char)
  | [] => if mark = [] then some ([], []) else none
  | c :: r =>
    if mark.isPrefixOf (c :: r) then some ([], (c :: r).drop mark.length)
    else (cut? mark r).map fun p => (c :: p.1, p.2)

def isBreakOrBlank (c : Char) : Bool := c = ' ' || c = '\t' || c = '\n' || c = '\r'

def lines (cs : List Char) : List (List Char) :=
  let parts := cs.splitOn '\n'
  let parts := if parts.getLast? = some [] then parts.dropLast else parts
  parts.map fun l => if l.getLast? = some '\r' then l.dropLast else l

/-- The label and the bytes of the first block of a text. Headers may precede the data, closed by
an empty line. -/
def lenient? (text : List Char) : Option (List Char × Bytes) := do
  let (_, rest) ← cut? opening text
  let (label, rest) ← cut? dashes rest
  let (body, rest) ← cut? closing (rest.dropWhile isBreakOrBlank)
  let (label', _) ← cut? dashes rest
  let (headers, data) :=
    ((cut? ['\n', '\n'] body).orElse fun _ => cut? ['\r', '\n', '\r', '\n'] body).getD ([], body)
  if label = [] ∨ label ≠ label' then none
  let bytes ← Base64.decode? .standard (((lines data).map (Text.trimEnd Text.isBlank)).flatten)
  if (lines headers).all (·.contains ':') then some (label, bytes) else none

end Countersign.Pem
