import RiscvEmulator.Library.ExceptList
import RiscvEmulator.Source.Base

/-!
# Bit utilities with checked shifts

`oneBits`, `getBits` and `signExtend` of src/riscv/utils/bits.hpp once more, with each
shift and each subtraction checked: a count that reaches the width of the promoted operand
is undefined behaviour, and so is an `int` that overflows. Where they are defined they
give what the total definitions give.
-/
namespace RiscvEmulator.Source.Checked
open Library.ExceptList

section Operators
variable {n : Nat}

def shiftLeft (x : BitVec n) (count : Nat) : Except Abort (BitVec n) :=
  if count < n then .ok (x <<< count) else .error .undefinedBehaviour

def shiftRight (x : BitVec n) (count : Nat) : Except Abort (BitVec n) :=
  if count < n then .ok (x >>> count) else .error .undefinedBehaviour

/-- `>>` of a signed operand. -/
def shiftRightSigned (x : BitVec n) (count : Nat) : Except Abort (BitVec n) :=
  if count < n then .ok (x.sshiftRight count) else .error .undefinedBehaviour

variable {x : BitVec n} {count : Nat}

theorem shiftLeft_of_lt (h : count < n) : shiftLeft x count = .ok (x <<< count) := if_pos h

theorem shiftLeft_of_le (h : n ≤ count) : shiftLeft x count = .error .undefinedBehaviour :=
  if_neg (Nat.not_lt.mpr h)

theorem shiftRight_of_lt (h : count < n) : shiftRight x count = .ok (x >>> count) := if_pos h

theorem shiftRightSigned_of_lt (h : count < n) :
    shiftRightSigned x count = .ok (x.sshiftRight count) := if_pos h

end Operators

/-- `-` in the promoted type of a `w`-bit type, which is `int` if the type is narrow. -/
def subtract (w : Nat) (x y : BitVec (promotedWidth w)) :
    Except Abort (BitVec (promotedWidth w)) :=
  if w < 32 ∧ x.ssubOverflow y then .error .undefinedBehaviour else .ok (x - y)

variable {w count : Nat}

def oneBits (w count : Nat) : Except Abort (BitVec w) := do
  let power ← shiftLeft 1#(promotedWidth w) count
  let mask ← subtract w power 1#(promotedWidth w)
  return mask.setWidth w

def getBits (value : BitVec w) (firstBit lastBit : Nat) : Except Abort (BitVec w) := do
  let shifted ← shiftRight (value.setWidth (promotedWidth w)) firstBit
  let mask ← oneBits w (lastBit - firstBit + 1)
  return (shifted &&& mask.setWidth (promotedWidth w)).setWidth w

/-- The widths are `unsigned int`, so the shift amount wraps when there is no such sign bit. -/
def signExtend (value : BitVec w) (signBit : Nat) : Except Abort (BitVec w) := do
  let beforeWidth := BitVec.ofNat 32 (signBit + 1)
  let afterWidth := BitVec.ofNat 32 w
  let shiftAmount := (afterWidth - beforeWidth).toNat
  let shifted ← shiftLeft (value.setWidth (promotedWidth w)) shiftAmount
  let extended ← shiftRightSigned ((shifted.setWidth w).signExtend (promotedWidth w)) shiftAmount
  return extended.setWidth w

/-- An `int` that is not negative does not overflow when 1 is taken from it. -/
theorem not_ssubOverflow_one {n : Nat} (hn : 1 < n) {x : BitVec n} (hmsb : x.msb = false) :
    x.ssubOverflow 1#n = false := by
  have hx : x.toInt = x.toNat := BitVec.toInt_eq_toNat_of_msb hmsb
  have hone : (1#n).toInt = 1 := BitVec.toInt_one hn
  have hbound : 2 * (x.toNat : Int) < 2 ^ n := by
    exact_mod_cast BitVec.msb_eq_false_iff_two_mul_lt.mp hmsb
  have hhalf : (2 : Int) ^ n = 2 * 2 ^ (n - 1) := by
    rw [← pow_succ', Nat.sub_add_cancel (Nat.le_of_lt hn)]
  have hpositive : (0 : Int) < 2 ^ (n - 1) := Int.pow_pos (by omega)
  simp only [BitVec.ssubOverflow, hx, hone, Bool.or_eq_false_iff, decide_eq_false_iff_not]
  omega

theorem msb_one_shiftLeft {n : Nat} (hcount : count + 1 < n) :
    (1#n <<< count).msb = false := by
  have hother : n - 1 ≠ count := by omega
  rw [BitVec.msb_eq_getLsbD_last, ← BitVec.twoPow_eq, BitVec.getLsbD_twoPow]
  simp [hother.symm]

theorem subtract_one (hfits : w < 32 → count + 1 < 32) :
    subtract w (1#(promotedWidth w) <<< count) 1#(promotedWidth w) =
      .ok ((1#(promotedWidth w) <<< count) - 1#(promotedWidth w)) := by
  apply if_neg
  rintro ⟨hnarrow, hoverflow⟩
  have hpromoted : promotedWidth w = 32 := Nat.max_eq_right (Nat.le_of_lt hnarrow)
  have hcount := hfits hnarrow
  rw [not_ssubOverflow_one (by omega) (msb_one_shiftLeft (by omega))] at hoverflow
  cases hoverflow

theorem oneBits_ok (hfits : w < 32 → count + 1 < 32) (hdefined : oneBitsDefined w count) :
    oneBits w count = .ok (Source.oneBits w count) := by
  rw [oneBits, shiftLeft_of_lt hdefined, ok_bind, subtract_one hfits]
  rfl

theorem oneBits_undefined (hcount : promotedWidth w ≤ count) :
    oneBits w count = .error .undefinedBehaviour := by
  rw [oneBits, shiftLeft_of_le hcount]
  rfl

section Fields
variable (value : BitVec w) {firstBit lastBit : Nat}

theorem getBits_ok (hfits : w < 32 → lastBit - firstBit + 2 < 32)
    (hdefined : getBitsDefined w firstBit lastBit) :
    getBits value firstBit lastBit = .ok (Source.getBits value firstBit lastBit) := by
  obtain ⟨hfirst, hmask⟩ := hdefined
  rw [getBits, shiftRight_of_lt hfirst, ok_bind, oneBits_ok hfits hmask]
  rfl

theorem getBits_undefined (hfirst : firstBit < promotedWidth w)
    (hcount : promotedWidth w ≤ lastBit - firstBit + 1) :
    getBits value firstBit lastBit = .error .undefinedBehaviour := by
  rw [getBits, shiftRight_of_lt hfirst, ok_bind, oneBits_undefined hcount]
  rfl

/-- There is no shift amount that sign extension may not use. -/
theorem signExtend_ok {signBit : Nat} (hsign : signBit < w)
    (hw : w < 2 ^ 32) : signExtend value signBit = .ok (Source.signExtend value signBit) := by
  have hamount : (BitVec.ofNat 32 w - BitVec.ofNat 32 (signBit + 1)).toNat =
      w - (signBit + 1) := by
    rw [BitVec.toNat_sub_of_le]
    · rw [BitVec.toNat_ofNat, BitVec.toNat_ofNat]
      omega
    · rw [BitVec.le_def, BitVec.toNat_ofNat, BitVec.toNat_ofNat]
      omega
  have hdefined : w - (signBit + 1) < promotedWidth w := signExtendDefined_of_lt hsign
  unfold signExtend
  dsimp only
  rw [hamount, shiftLeft_of_lt hdefined, ok_bind, shiftRightSigned_of_lt hdefined]
  rfl

end Fields
end RiscvEmulator.Source.Checked
