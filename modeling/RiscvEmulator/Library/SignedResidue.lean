import Mathlib.Data.BitVec
import Mathlib.Data.Int.ModEq

/-!
# Signed residues

The integers between `-2 ^ n` and `2 ^ n` represent each residue modulo `2 ^ (n + 1)`
once. The signed value of a bit vector of width `n + 1` is the representative of its
unsigned value.
-/
namespace RiscvEmulator.Library

/-- `z` represents `x` modulo `2 ^ (n + 1)` among the integers of `n + 1` signed bits. -/
structure SignedResidue (n : Nat) (x z : Int) : Prop where
  lower : -2 ^ n ≤ z
  upper : z < 2 ^ n
  congruent : z ≡ x [ZMOD 2 ^ (n + 1)]

namespace SignedResidue
variable {n : Nat} {x y z z' : Int}

theorem unique (h : SignedResidue n x z) (h' : SignedResidue n x z') : z' = z := by
  have hlower := h.lower
  have hupper := h.upper
  have hlower' := h'.lower
  have hupper' := h'.upper
  have hwidth : (2 : Int) ^ (n + 1) = 2 * 2 ^ n := pow_succ' 2 n
  have hdvd : (2 : Int) ^ (n + 1) ∣ z - z' := (h'.congruent.trans h.congruent.symm).dvd
  have hsmall : |z - z'| < 2 ^ (n + 1) := by
    rw [abs_lt]
    constructor <;> omega
  have hzero : z - z' = 0 := Int.eq_zero_of_abs_lt_dvd hdvd hsmall
  omega

theorem congr (hxy : x ≡ y [ZMOD 2 ^ (n + 1)]) (h : SignedResidue n x z) : SignedResidue n y z :=
  ⟨h.lower, h.upper, h.congruent.trans hxy⟩

theorem toInt (v : BitVec (n + 1)) : SignedResidue n v.toNat v.toInt := by
  refine ⟨v.le_toInt, v.toInt_lt, ?_⟩
  rw [BitVec.toInt_eq_toNat_bmod]
  exact_mod_cast Int.bmod_emod

/-- Cutting a value to `n + 1` bits does not change its residue. -/
theorem toInt_setWidth {w : Nat} (v : BitVec w) :
    SignedResidue n v.toNat (v.setWidth (n + 1)).toInt := by
  have hcut : ((v.setWidth (n + 1)).toNat : Int) ≡ v.toNat [ZMOD 2 ^ (n + 1)] := by
    rw [BitVec.toNat_setWidth]
    exact_mod_cast Nat.mod_modEq v.toNat (2 ^ (n + 1))
  exact (toInt (v.setWidth (n + 1))).congr hcut

end SignedResidue
end RiscvEmulator.Library
