import Countersign.Rsa.Signature

/-!
# What an RSA key signs, its public half verifies

A number below the modulus fits into the bytes of a signature, so it is read back
as itself. The signer has already raised it to the public exponent and compared;
no property of the primes is used.
-/

set_option autoImplicit false

namespace Countersign

namespace Bytes

theorem lt_width (n : Nat) : n < Nat.pow 256 (widthOf n) := by
  by_cases h : n = 0
  · simp [h, widthOf]
  · have hlog : n < 2 ^ (Nat.log2 n + 1) := Nat.lt_log2_self
    have hexp : Nat.log2 n + 1 ≤ 8 * widthOf n := by
      simp only [widthOf, if_neg h]
      omega
    calc
      n < 2 ^ (Nat.log2 n + 1) := hlog
      _ ≤ 2 ^ (8 * widthOf n) := Nat.pow_le_pow_right (by decide) hexp
      _ = (2 ^ 8) ^ widthOf n := Nat.pow_mul 2 8 _

theorem to_nat_of_lt (n m : Nat) (h : n < m) : toNatBE (ofNatBE (widthOf m) n) = n := by
  rw [toNatBE_ofNatBE]
  exact Nat.mod_eq_of_lt (Nat.lt_trans h (lt_width m))

end Bytes

namespace Rsa

/-- A signature that is handed out verifies under the public numbers alone. -/
theorem sign_verify (k : PublicNumbers) (p q secret : Nat) (message b : Bytes)
    (h : sign k p q secret message = .ok b) : k.verify message b = true := by
  unfold sign at h
  cases hb : block? k.size message with
  | none => simp [hb] at h
  | some block =>
    simp only [hb] at h
    split at h
    · next hs =>
      obtain ⟨hlt, happly⟩ := hs
      simp only [Except.ok.injEq] at h
      have hback : Bytes.toNatBE (Bytes.ofNatBE k.size
          (privatePower p q secret (Bytes.toNatBE block))) =
          privatePower p q secret (Bytes.toNatBE block) := Bytes.to_nat_of_lt _ _ hlt
      rw [← h]
      simp [PublicNumbers.verify, hb, hback, hlt, happly]
    · cases h

end Rsa

end Countersign
