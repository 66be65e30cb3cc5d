import Countersign.Gate
import Countersign.Proofs.Encoding.Percent
import Countersign.Proofs.Http.Header

/-!
# What a rejection shows

An escaped text is always a header value. So a rejection has both headers of an
echo or neither, and in everything else all rejections are the same.
-/

set_option autoImplicit false

namespace Countersign.Gate

open Percent (IsPrintable)

def echoNames : List String := [textHeader, queryHeader]

theorem echo_value_printable (s : String) (c : Char) (h : c ∈ (echoValue s).toList) :
    IsPrintable c := by
  rw [echoValue, String.toList_ofList] at h
  exact Percent.encode_printable _ c h

theorem echo_header (name text : String) : echoHeader? name text = some (name, echoValue text) := by
  have hreadable : Http.IsReadableText (echoValue text) :=
    fun c hc => Or.inr (echo_value_printable text c hc)
  obtain ⟨value, hvalue, _⟩ := Http.readable_round_trip (echoValue text) hreadable
  rw [echoHeader?, hvalue, Option.map_some]

theorem echo_headers (e : Echo) : echoHeaders (some e) =
    [(textHeader, echoValue e.signText), (queryHeader, echoValue e.query)] := by
  rw [echoHeaders, echo_header, echo_header]
  rfl

theorem mem_echo_names (echo : Option Echo) (name : String) (h : name ∈ echoNames) :
    name ∈ (rejection echo).headers.map Prod.fst ↔ echo.isSome = true := by
  have hplain : name ≠ "content-type" := by
    rintro rfl
    exact absurd h (by decide)
  cases echo with
  | none => simp [rejection, echoHeaders, hplain]
  | some e => simpa [rejection, echo_headers, hplain, echoNames] using h

theorem rejection_plain (echo : Option Echo) :
    (rejection echo).headers.filter (fun p => p.1 ∉ echoNames) =
      [("content-type", "application/json")] := by
  cases echo with
  | none => decide
  | some e =>
    have htext : textHeader ∈ echoNames := by decide
    have hquery : queryHeader ∈ echoNames := by decide
    simp only [rejection, echo_headers]
    rw [List.filter_cons_of_pos (by decide), List.filter_cons_of_neg (by simpa using htext),
      List.filter_cons_of_neg (by simpa using hquery), List.filter_nil]

theorem shown_printable (echo : Option Echo) (p : String × String)
    (hp : p ∈ (rejection echo).headers) (hname : p.1 ∈ echoNames) (c : Char)
    (hc : c ∈ p.2.toList) : IsPrintable c := by
  rcases List.mem_cons.mp hp with rfl | hp
  · exact absurd hname (by decide)
  cases echo with
  | none => cases hp
  | some e =>
    rw [echo_headers] at hp
    simp only [List.mem_cons, List.not_mem_nil, or_false] at hp
    rcases hp with rfl | rfl
    · exact echo_value_printable e.signText c hc
    · exact echo_value_printable e.query c hc

end Countersign.Gate
