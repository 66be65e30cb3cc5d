/-!
# Byte strings

Messages, keys and digests are lists of bytes. Numbers enter and leave them
with the most significant byte first.
-/

set_option autoImplicit false

namespace Countersign

abbrev Bytes := List UInt8

namespace Bytes

def toNatBE (b : Bytes) : Nat := b.foldl (fun n x => n * 256 + x.toNat) 0

/-- The lowest `width` bytes of `n`, most significant byte first. -/
def ofNatBE : Nat → Nat → Bytes
  | 0, _ => []
  | width + 1, n => ofNatBE width (n / 256) ++ [UInt8.ofNat n]

@[simp] theorem length_ofNatBE (width n : Nat) : (ofNatBE width n).length = width := by
  induction width generalizing n with
  | zero => rfl
  | succ width ih => simp [ofNatBE, ih]

@[simp] theorem toNatBE_nil : toNatBE [] = 0 := rfl

@[simp] theorem toNatBE_concat (b : Bytes) (x : UInt8) :
    toNatBE (b ++ [x]) = toNatBE b * 256 + x.toNat := by
  simp [toNatBE]

theorem toNatBE_ofNatBE (width n : Nat) : toNatBE (ofNatBE width n) = n % Nat.pow 256 width := by
  induction width generalizing n with
  | zero => simp [ofNatBE, Nat.mod_one, Nat.pow]
  | succ width ih =>
    change _ = n % (Nat.pow 256 width * 256)
    rw [ofNatBE, toNatBE_concat, ih, Nat.mul_comm (Nat.pow 256 width) 256, Nat.mod_mul]
    simp only [UInt8.toNat_ofNat']
    omega

def widthOf (n : Nat) : Nat := if n = 0 then 0 else Nat.log2 n / 8 + 1

end Bytes

end Countersign
