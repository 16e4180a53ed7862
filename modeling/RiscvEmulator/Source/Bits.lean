import Mathlib.Data.BitVec
import Mathlib.Tactic.IntervalCases

/-!
# Bit utilities

Embeds src/riscv/utils/bits.hpp. `T` is an integer type of width `w`, its values are
`BitVec w`. An operand of a narrow type is promoted to `int` before a shift, so the
shifts run in `promotedWidth w` bits and the result is truncated back on conversion
to `T`. A shift count that reaches the promoted width is undefined behaviour in the
source; the definitions below are total and `oneBitsDefined`, `getBitsDefined` and
`signExtendDefined` say when no such shift is performed.
-/
namespace RiscvEmulator.Source

/-- Width after integer promotion: `int` for the 8- and 16-bit types. -/
def promotedWidth (w : Nat) : Nat := max w 32

variable {w : Nat}

def hasBit (value : BitVec w) (bitIndex : Nat) : Bool :=
  value.setWidth (promotedWidth w) &&& (1#(promotedWidth w) <<< bitIndex) != 0

def setBit (value : BitVec w) (bitIndex : Nat) : BitVec w :=
  (value.setWidth (promotedWidth w) ||| (1#(promotedWidth w) <<< bitIndex)).setWidth w

def clearBit (value : BitVec w) (bitIndex : Nat) : BitVec w :=
  (value.setWidth (promotedWidth w) &&& ~~~(1#(promotedWidth w) <<< bitIndex)).setWidth w

/-- A bitmask with the specified number of bits set to 1. -/
def oneBits (w count : Nat) : BitVec w :=
  ((1#(promotedWidth w) <<< count) - 1#(promotedWidth w)).setWidth w

def oneBitsDefined (w count : Nat) : Prop := count < promotedWidth w

/-- The value of the bit field located in the given bits. -/
def getBits (value : BitVec w) (firstBit lastBit : Nat) : BitVec w :=
  ((value.setWidth (promotedWidth w) >>> firstBit) &&&
    (oneBits w (lastBit - firstBit + 1)).setWidth (promotedWidth w)).setWidth w

def getBitsDefined (w firstBit lastBit : Nat) : Prop :=
  firstBit < promotedWidth w ∧ oneBitsDefined w (lastBit - firstBit + 1)

/-- Sign-extends from the given sign bit: left shift in the promoted type, cast to the
signed type, arithmetic right shift in its promoted type, cast to the signed type. -/
def signExtend (value : BitVec w) (signBit : Nat) : BitVec w :=
  let shiftAmount := w - (signBit + 1)
  let shifted := (value.setWidth (promotedWidth w) <<< shiftAmount).setWidth w
  ((shifted.signExtend (promotedWidth w)).sshiftRight shiftAmount).setWidth w

def signExtendDefined (w signBit : Nat) : Prop := w - (signBit + 1) < promotedWidth w

theorem le_promotedWidth (w : Nat) : w ≤ promotedWidth w := Nat.le_max_left _ _

/-- The mask before it is narrowed, the full-width count included. -/
theorem toNat_promotedMask {count : Nat} (hcount : count ≤ promotedWidth w) :
    ((1#(promotedWidth w) <<< count) - 1#(promotedWidth w)).toNat = 2 ^ count - 1 := by
  have hp : 32 ≤ promotedWidth w := Nat.le_max_right _ _
  have hone : 1 < 2 ^ promotedWidth w := Nat.one_lt_two_pow (by omega)
  have hpos : 0 < 2 ^ count := Nat.two_pow_pos count
  have hle : 2 ^ count ≤ 2 ^ promotedWidth w := Nat.pow_le_pow_right (by decide) hcount
  rw [BitVec.toNat_sub, BitVec.toNat_shiftLeft, BitVec.toNat_ofNat, Nat.mod_eq_of_lt hone,
    Nat.shiftLeft_eq, Nat.one_mul]
  rcases Nat.lt_or_eq_of_le hle with hlt | heq
  · rw [Nat.mod_eq_of_lt hlt,
      show 2 ^ promotedWidth w - 1 + 2 ^ count = 2 ^ promotedWidth w + (2 ^ count - 1) by omega,
      Nat.add_mod_left, Nat.mod_eq_of_lt (by omega)]
  · rw [heq, Nat.mod_self, Nat.add_zero, Nat.mod_eq_of_lt (by omega)]

theorem toNat_oneBits {count : Nat} (hcount : count ≤ w) :
    (oneBits w count).toNat = 2 ^ count - 1 := by
  have hw := le_promotedWidth w
  have hpos : 0 < 2 ^ w := Nat.two_pow_pos w
  have hle : 2 ^ count ≤ 2 ^ w := Nat.pow_le_pow_right (by decide) hcount
  rw [oneBits, BitVec.toNat_setWidth, toNat_promotedMask (by omega), Nat.mod_eq_of_lt (by omega)]

/-- Each mask bit is set exactly below `count`. -/
theorem getLsbD_oneBits (count i : Nat) (hcount : count ≤ promotedWidth w) :
    (oneBits w count).getLsbD i = (decide (i < w) && decide (i < count)) := by
  rw [oneBits, BitVec.getLsbD_setWidth, BitVec.getLsbD, toNat_promotedMask hcount,
    Nat.testBit_two_pow_sub_one]

/-- A bit field is the slice of its bits, zero-extended to the operand's type. -/
theorem getBits_eq_extractLsb' (value : BitVec w) (firstBit lastBit : Nat)
    (hfirst : firstBit ≤ lastBit) (hlast : lastBit < w) :
    getBits value firstBit lastBit =
      (value.extractLsb' firstBit (lastBit - firstBit + 1)).setWidth w := by
  have hw := le_promotedWidth w
  have hcount : lastBit - firstBit + 1 ≤ promotedWidth w := by omega
  apply BitVec.eq_of_getLsbD_eq
  intro i hi
  have hip : i < promotedWidth w := by omega
  simp only [getBits, BitVec.getLsbD_setWidth, BitVec.getLsbD_and, BitVec.getLsbD_ushiftRight,
    BitVec.getLsbD_extractLsb', @getLsbD_oneBits w _ i hcount, hi, hip, decide_true, Bool.true_and]
  by_cases hin : i < lastBit - firstBit + 1
  · have hsum : firstBit + i < promotedWidth w := by omega
    simp [hin, hsum]
  · simp [hin]

theorem toNat_getBits (value : BitVec w) {firstBit lastBit : Nat} (hfirst : firstBit ≤ lastBit)
    (hlast : lastBit < w) :
    (getBits value firstBit lastBit).toNat =
      value.toNat / 2 ^ firstBit % 2 ^ (lastBit - firstBit + 1) := by
  rw [getBits_eq_extractLsb' value firstBit lastBit hfirst hlast,
    BitVec.toNat_setWidth_of_le (by omega), BitVec.extractLsb'_toNat, Nat.shiftRight_eq_div_pow]

/-- A tested bit is the bit. -/
theorem hasBit_eq_getLsbD (value : BitVec w) {bitIndex : Nat} (hindex : bitIndex < w) :
    hasBit value bitIndex = value.getLsbD bitIndex := by
  have hw := le_promotedWidth w
  have hpromoted : bitIndex < promotedWidth w := by omega
  have hone : BitVec.twoPow (promotedWidth w) bitIndex ≠ 0#(promotedWidth w) := by
    intro hzero
    have hbit := congrArg (fun x => x.getLsbD bitIndex) hzero
    simp [hpromoted] at hbit
  rw [hasBit, ← BitVec.twoPow_eq, BitVec.and_twoPow, BitVec.getLsbD_setWidth]
  cases value.getLsbD bitIndex with
  | true => simp [hpromoted, hone]
  | false => simp

theorem getLsbD_setBit (value : BitVec w) (bitIndex : Nat) {i : Nat} (hi : i < w) :
    (setBit value bitIndex).getLsbD i = (value.getLsbD i || decide (bitIndex = i)) := by
  have hw := le_promotedWidth w
  have hip : i < promotedWidth w := by omega
  rw [setBit, ← BitVec.twoPow_eq]
  simp only [BitVec.getLsbD_setWidth, BitVec.getLsbD_or, BitVec.getLsbD_twoPow, hi, hip,
    decide_true, Bool.true_and]
  by_cases hsame : bitIndex = i
  · simp [hsame, hip]
  · simp [hsame]

theorem getLsbD_clearBit (value : BitVec w) (bitIndex : Nat) {i : Nat} (hi : i < w) :
    (clearBit value bitIndex).getLsbD i = (value.getLsbD i && !decide (bitIndex = i)) := by
  have hw := le_promotedWidth w
  have hip : i < promotedWidth w := by omega
  rw [clearBit, ← BitVec.twoPow_eq]
  simp only [BitVec.getLsbD_setWidth, BitVec.getLsbD_and, BitVec.getLsbD_not,
    BitVec.getLsbD_twoPow, hi, hip, decide_true, Bool.true_and]
  by_cases hsame : bitIndex = i
  · simp [hsame, hip]
  · simp [hsame]

/-- Clearing a bit that is not set does nothing. -/
theorem clearBit_of_not_hasBit {value : BitVec w} {bitIndex : Nat} (hindex : bitIndex < w)
    (h : hasBit value bitIndex = false) : clearBit value bitIndex = value := by
  rw [hasBit_eq_getLsbD value hindex] at h
  apply BitVec.eq_of_getLsbD_eq
  intro i hi
  rw [getLsbD_clearBit value bitIndex hi]
  by_cases hsame : bitIndex = i
  · rw [← hsame, h]
    rfl
  · simp [hsame]

theorem signExtendDefined_of_lt {signBit : Nat} (hsign : signBit < w) :
    signExtendDefined w signBit := by
  have hw := le_promotedWidth w
  unfold signExtendDefined
  omega

/-- A sign-extended value repeats its last bit. -/
theorem getLsbD_signExtend_min {n : Nat} (x : BitVec w) {i : Nat} (hi : i < n) :
    (x.signExtend n).getLsbD i = x.getLsbD (min i (w - 1)) := by
  rw [BitVec.getLsbD_signExtend, BitVec.msb_eq_getLsbD_last]
  by_cases hiw : i < w
  · simp [hi, hiw, Nat.min_eq_left (by omega : i ≤ w - 1)]
  · simp [hi, hiw, Nat.min_eq_right (by omega : w - 1 ≤ i)]

/-- Below the sign bit the shift idiom keeps `value`, above it repeats the sign bit. -/
theorem getLsbD_signExtend (value : BitVec w) (signBit i : Nat) (hsign : signBit < w) (hi : i < w) :
    (signExtend value signBit).getLsbD i =
      if i ≤ signBit then value.getLsbD i else value.getLsbD signBit := by
  have hw := le_promotedWidth w
  let shifted : BitVec w :=
    (value.setWidth (promotedWidth w) <<< (w - (signBit + 1))).setWidth w
  have hshifted : ∀ j, j < w → w - (signBit + 1) ≤ j →
      shifted.getLsbD j = value.getLsbD (j - (w - (signBit + 1))) := by
    intro j hj hs
    have hjp : j < promotedWidth w := by omega
    simp [shifted, hj, hjp, hs]
  have hwide : ∀ j, j < promotedWidth w → (shifted.signExtend (promotedWidth w)).getLsbD j =
      shifted.getLsbD (min j (w - 1)) := fun j hj => getLsbD_signExtend_min shifted hj
  have hmsb : (shifted.signExtend (promotedWidth w)).msb = value.getLsbD signBit := by
    rw [BitVec.msb_eq_getLsbD_last, hwide _ (by omega), Nat.min_eq_right (by omega),
      hshifted _ (by omega) (by omega)]
    congr 1
    omega
  have hip : i < promotedWidth w := by omega
  rw [show signExtend value signBit = ((shifted.signExtend (promotedWidth w)).sshiftRight
    (w - (signBit + 1))).setWidth w from rfl, BitVec.getLsbD_setWidth,
    BitVec.getLsbD_sshiftRight, hmsb]
  by_cases hin : w - (signBit + 1) + i < promotedWidth w
  · rw [if_pos hin, hwide _ hin, hshifted _ (by omega) (by omega)]
    by_cases hle : i ≤ signBit
    · have hidx : min (w - (signBit + 1) + i) (w - 1) - (w - (signBit + 1)) = i := by omega
      simp [hidx, hle, hi, hip]
    · have hidx : min (w - (signBit + 1) + i) (w - 1) - (w - (signBit + 1)) = signBit := by omega
      simp [hidx, hle, hi, hip]
  · simp [hin, hi, hip, show ¬ i ≤ signBit by omega]

/-- The shift idiom is sign extension of the low `signBit + 1` bits. -/
theorem signExtend_eq (value : BitVec w) (signBit : Nat) (hsign : signBit < w) :
    signExtend value signBit = (value.setWidth (signBit + 1)).signExtend w := by
  apply BitVec.eq_of_getLsbD_eq
  intro i hi
  rw [getLsbD_signExtend value signBit i hsign hi, BitVec.getLsbD_signExtend,
    BitVec.msb_eq_getLsbD_last]
  by_cases hle : i ≤ signBit
  · simp [hi, hle, Nat.lt_succ_of_le hle]
  · simp [hi, hle, show ¬ i < signBit + 1 by omega]

end RiscvEmulator.Source
