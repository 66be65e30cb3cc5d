/-!
# Modular arithmetic

Powers and inverses modulo a number, by repeated squaring and by Euclid's
algorithm.
-/

set_option autoImplicit false

namespace Countersign.Rsa

def powMod (b e m : Nat) : Nat :=
  if h : e = 0 then 1 % m
  else
    let half := powMod (b * b % m) (e / 2) m
    if e % 2 = 0 then half else b * half % m
termination_by e
decreasing_by omega

theorem powMod_eq (b e m : Nat) : powMod b e m = Nat.pow b e % m := by
  change powMod b e m = b ^ e % m
  induction e using Nat.strongRecOn generalizing b with
  | ind e ih =>
    rw [powMod]
    split
    · next h => simp [h]
    · next h =>
      have hsq : powMod (b * b % m) (e / 2) m = (b * b) ^ (e / 2) % m := by
        rw [ih (e / 2) (by omega), Nat.pow_mod, Nat.mod_mod, ← Nat.pow_mod]
      have hexp : (b * b) ^ (e / 2) = b ^ (2 * (e / 2)) := by
        rw [← Nat.pow_two, ← Nat.pow_mul]
      simp only [hsq, hexp]
      split
      · next h2 => rw [show 2 * (e / 2) = e by omega]
      · next h2 =>
        rw [Nat.mul_mod, Nat.mod_mod, ← Nat.mul_mod, ← Nat.pow_succ']
        congr 2
        omega

/-- Euclid's algorithm on two numbers, with their multiples of a third: the greatest common divisor
and its multiple. -/
def euclid : Nat → Nat → Int → Int → Nat × Int
  | r₀, 0, t₀, _ => (r₀, t₀)
  | r₀, r₁ + 1, t₀, t₁ =>
    euclid (r₁ + 1) (r₀ % (r₁ + 1)) t₁ (t₀ - (r₀ / (r₁ + 1) : Nat) * t₁)
termination_by _ r₁ => r₁
decreasing_by exact Nat.mod_lt _ (Nat.succ_pos _)

def inverse? (a m : Nat) : Option Nat :=
  let (g, t) := euclid m (a % m) 0 1
  if g = 1 then some (t % (m : Int)).toNat else none

end Countersign.Rsa
