/-!
# Random letters and digits

Nonces and the seeds of token ids are texts of ASCII letters and digits, drawn
from a generator that the caller supplies.
-/

set_option autoImplicit false

namespace Countersign

namespace Random

def alphanumeric (n : Nat) : Char :=
  let k := n % 62
  if k < 26 then Char.ofNat (65 + k) else if k < 52 then Char.ofNat (71 + k) else Char.ofNat (k - 4)

theorem isAlphanum_alphanumeric (n : Nat) : (alphanumeric n).isAlphanum = true := by
  have h : ∀ k : Fin 62, (alphanumeric k.val).isAlphanum = true := by decide
  have hn := h ⟨n % 62, Nat.mod_lt _ (by decide)⟩
  simpa [alphanumeric] using hn

def text : Nat → StdGen → List Char × StdGen
  | 0, g => ([], g)
  | n + 1, g =>
    let (k, g) := randNat g 0 61
    let (cs, g) := text n g
    (alphanumeric k :: cs, g)

@[simp] theorem length_text (n : Nat) (g : StdGen) : (text n g).1.length = n := by
  induction n generalizing g with
  | zero => rfl
  | succ n ih => simp [text, ih]

theorem isAlphanum_of_mem_text {n : Nat} {g : StdGen} {c : Char} (h : c ∈ (text n g).1) :
    c.isAlphanum = true := by
  induction n generalizing g with
  | zero => simp [text] at h
  | succ n ih =>
    simp only [text, List.mem_cons] at h
    rcases h with h | h
    · exact h ▸ isAlphanum_alphanumeric _
    · exact ih h

end Random

structure Nonce where
  text : String
  length_eq : text.toList.length = 32
  isAlphanum_of_mem : ∀ c ∈ text.toList, c.isAlphanum = true
deriving DecidableEq

def Nonce.draw (g : StdGen) : Nonce × StdGen :=
  let r := Random.text 32 g
  (⟨String.ofList r.1, by simp [r], fun c hc =>
      Random.isAlphanum_of_mem_text (n := 32) (g := g) (by simpa [r] using hc)⟩, r.2)

end Countersign
