import RiscvEmulator.Source.Base
import RiscvEmulator.Library.WriteHistory

/-!
# The floating-point control state

The exception flags are updated one at a time or, with the rounding mode, through the
packed control register. In any order of updates from a fresh thread the flags stay
below bit 5, so that the packed register keeps both fields apart, and each field holds
what it was given last.
-/
namespace RiscvEmulator.Guarantees
open Source Library.WriteHistory

/-- A call that updates the control state. -/
inductive FloatUpdate where
  | setFlag (flag : FloatExceptionFlags) (value : Bool)
  | setControl (value : Register)

namespace FloatUpdate

def apply (t : Thread) : FloatUpdate → Thread
  | .setFlag flag value => t.setFloatExceptionFlag flag value
  | .setControl value => t.setFloatControlStatusRegister value

/-- What an update gives a flag: a value set directly, or its bit of a written register. -/
def givenFlag (flag : FloatExceptionFlags) : FloatUpdate → Option Bool
  | .setFlag updated value => if updated = flag then some value else none
  | .setControl value => some (value.getLsbD flag.bitIndex)

/-- Bits 5, 6 and 7 of a written register. -/
def givenMode : FloatUpdate → Option Nat
  | .setFlag _ _ => none
  | .setControl value => some (value.toNat / 2 ^ 5 % 2 ^ 3)

end FloatUpdate

def afterUpdates (updates : List FloatUpdate) : Thread :=
  updates.foldl FloatUpdate.apply {}

/-- The flags are five bits and the rounding mode is three. -/
structure ControlBounds (t : Thread) : Prop where
  flags : t.floatExceptionFlags.toNat < 2 ^ 5
  mode : t.dynamicFloatRoundingMode.toNat < 2 ^ 3

theorem bitIndex_lt (flag : FloatExceptionFlags) : flag.bitIndex < 5 := by
  cases flag <;> decide

theorem bitIndex_injective {flag other : FloatExceptionFlags}
    (h : flag.bitIndex = other.bitIndex) : flag = other := by
  cases flag <;> cases other <;> first | rfl | cases h

section Fields
variable (t : Thread) (value : Register)

/-- A field of at most eight bits, cast to the byte that keeps it. -/
theorem toNat_field {firstBit lastBit : Nat} (hfirst : firstBit ≤ lastBit) (hlast : lastBit < 64)
    (hnarrow : lastBit - firstBit + 1 ≤ 8) :
    ((getBits value firstBit lastBit).setWidth 8).toNat =
      value.toNat / 2 ^ firstBit % 2 ^ (lastBit - firstBit + 1) := by
  have hpow : 2 ^ (lastBit - firstBit + 1) ≤ 2 ^ 8 := Nat.pow_le_pow_right (by omega) hnarrow
  have hlt : value.toNat / 2 ^ firstBit % 2 ^ (lastBit - firstBit + 1) < 2 ^ 8 :=
    Nat.lt_of_lt_of_le (Nat.mod_lt _ (Nat.two_pow_pos _)) hpow
  rw [BitVec.toNat_setWidth, toNat_getBits value hfirst hlast, Nat.mod_eq_of_lt hlt]

theorem control_mode : (t.setFloatControlStatusRegister value).dynamicFloatRoundingMode.toNat =
    value.toNat / 2 ^ 5 % 2 ^ 3 :=
  @toNat_field value 5 7 (by omega) (by omega) (by omega)

theorem control_flags : (t.setFloatControlStatusRegister value).floatExceptionFlags.toNat =
    value.toNat % 2 ^ 5 := by
  have hfield := @toNat_field value 0 4 (by omega) (by omega) (by omega)
  rw [Nat.pow_zero, Nat.div_one] at hfield
  exact hfield

theorem getFlag_eq (flag : FloatExceptionFlags) :
    t.getFloatExceptionFlag flag = t.floatExceptionFlags.getLsbD flag.bitIndex := by
  have hindex := bitIndex_lt flag
  exact hasBit_eq_getLsbD _ (by omega)

theorem getLsbD_setFlag (flag : FloatExceptionFlags) (raised : Bool) {i : Nat} (hi : i < 8) :
    (t.setFloatExceptionFlag flag raised).floatExceptionFlags.getLsbD i =
      if flag.bitIndex = i then raised else t.floatExceptionFlags.getLsbD i := by
  cases raised with
  | true =>
    have hset := getLsbD_setBit t.floatExceptionFlags flag.bitIndex hi
    rw [Thread.setFloatExceptionFlag, if_pos rfl, hset]
    by_cases hsame : flag.bitIndex = i <;> simp [hsame]
  | false =>
    have hclear := getLsbD_clearBit t.floatExceptionFlags flag.bitIndex hi
    rw [Thread.setFloatExceptionFlag, if_neg Bool.false_ne_true, hclear]
    by_cases hsame : flag.bitIndex = i <;> simp [hsame]

theorem setFlag_mode (flag : FloatExceptionFlags) (raised : Bool) :
    (t.setFloatExceptionFlag flag raised).dynamicFloatRoundingMode =
      t.dynamicFloatRoundingMode := by
  cases raised <;> rfl

end Fields

section Step
variable (t : Thread) (update : FloatUpdate)

/-- An update gives a flag its value, and leaves the flags it gives nothing. -/
theorem flag_step (flag : FloatExceptionFlags) :
    (update.apply t).getFloatExceptionFlag flag =
      (update.givenFlag flag).getD (t.getFloatExceptionFlag flag) := by
  have hindex := bitIndex_lt flag
  rw [getFlag_eq, getFlag_eq]
  cases update with
  | setFlag updated raised =>
    rw [FloatUpdate.apply, getLsbD_setFlag t updated raised (by omega), FloatUpdate.givenFlag]
    by_cases hsame : updated = flag
    · simp [hsame]
    · have hother : updated.bitIndex ≠ flag.bitIndex := fun h => hsame (bitIndex_injective h)
      simp [hsame, hother]
  | setControl value =>
    rw [FloatUpdate.apply, BitVec.getLsbD, control_flags, Nat.testBit_mod_two_pow]
    simp [FloatUpdate.givenFlag, BitVec.getLsbD, hindex]

theorem mode_step : (update.apply t).dynamicFloatRoundingMode.toNat =
    update.givenMode.getD t.dynamicFloatRoundingMode.toNat := by
  cases update with
  | setFlag flag raised =>
    rw [FloatUpdate.apply, setFlag_mode]
    rfl
  | setControl value =>
    rw [FloatUpdate.apply, control_mode]
    rfl

theorem setControl_bounds (value : Register) :
    ControlBounds (t.setFloatControlStatusRegister value) := by
  refine ⟨?_, ?_⟩
  · rw [control_flags]
    omega
  · rw [control_mode]
    omega

/-- An update of a flag reaches no bit beyond the flags. -/
theorem setFlag_bounds {t : Thread} (h : ControlBounds t) (flag : FloatExceptionFlags)
    (raised : Bool) : ControlBounds (t.setFloatExceptionFlag flag raised) := by
  refine ⟨?_, ?_⟩
  · apply Nat.lt_pow_two_of_testBit
    intro i hi
    have hindex := bitIndex_lt flag
    have hbit : t.floatExceptionFlags.getLsbD i = false :=
      Nat.testBit_lt_two_pow (Nat.lt_of_lt_of_le h.flags (Nat.pow_le_pow_right (by omega) hi))
    by_cases hbyte : i < 8
    · have hflag := getLsbD_setFlag t flag raised hbyte
      rw [if_neg (by omega), hbit] at hflag
      exact hflag
    · exact BitVec.getLsbD_of_ge _ i (by omega)
  · rw [setFlag_mode]
    exact h.mode

theorem bounds_step {t : Thread} (update : FloatUpdate) (h : ControlBounds t) :
    ControlBounds (update.apply t) := by
  cases update with
  | setFlag flag raised => exact setFlag_bounds h flag raised
  | setControl value => exact setControl_bounds t value

end Step

section Packed
variable {t : Thread}

/-- Inside their bounds the two fields have no bit in common, so `|` adds them. -/
theorem toNat_getControl (h : ControlBounds t) : t.getFloatControlStatusRegister.toNat =
    t.dynamicFloatRoundingMode.toNat * 2 ^ 5 + t.floatExceptionFlags.toNat := by
  have hmode := h.mode
  have hshift : (t.dynamicFloatRoundingMode.setWidth 64 <<< 5).toNat =
      t.dynamicFloatRoundingMode.toNat <<< 5 := by
    have hlt : t.dynamicFloatRoundingMode.toNat * 2 ^ 5 < 2 ^ 64 := by omega
    rw [BitVec.toNat_shiftLeft, BitVec.toNat_setWidth_of_le (by omega), Nat.shiftLeft_eq,
      Nat.mod_eq_of_lt hlt]
  rw [Thread.getFloatControlStatusRegister, BitVec.toNat_or, hshift,
    BitVec.toNat_setWidth_of_le (by omega), ← Nat.shiftLeft_add_eq_or_of_lt h.flags,
    Nat.shiftLeft_eq]

/-- Writing back the value just read changes nothing. -/
theorem setControl_getControl (h : ControlBounds t) :
    t.setFloatControlStatusRegister t.getFloatControlStatusRegister = t := by
  have hpacked := toNat_getControl h
  have hmodeLt := h.mode
  have hflagsLt := h.flags
  have hmode : (t.setFloatControlStatusRegister
      t.getFloatControlStatusRegister).dynamicFloatRoundingMode = t.dynamicFloatRoundingMode := by
    apply BitVec.eq_of_toNat_eq
    rw [control_mode, hpacked]
    omega
  have hflags : (t.setFloatControlStatusRegister
      t.getFloatControlStatusRegister).floatExceptionFlags = t.floatExceptionFlags := by
    apply BitVec.eq_of_toNat_eq
    rw [control_flags, hpacked]
    omega
  calc t.setFloatControlStatusRegister t.getFloatControlStatusRegister
    _ = { t with
          dynamicFloatRoundingMode := (t.setFloatControlStatusRegister
            t.getFloatControlStatusRegister).dynamicFloatRoundingMode
          floatExceptionFlags := (t.setFloatControlStatusRegister
            t.getFloatControlStatusRegister).floatExceptionFlags } := rfl
    _ = t := by rw [hmode, hflags]

/-- Reading after a write gives the low eight bits. -/
theorem getControl_setControl (t : Thread) (value : Register) :
    (t.setFloatControlStatusRegister value).getFloatControlStatusRegister.toNat =
      value.toNat % 256 := by
  rw [toNat_getControl (setControl_bounds t value), control_mode, control_flags]
  omega

end Packed

theorem bounds_afterUpdates (updates : List FloatUpdate) :
    ControlBounds (afterUpdates updates) := by
  have hrun (t : Thread) (h : ControlBounds t) :
      ControlBounds (updates.foldl FloatUpdate.apply t) := by
    induction updates generalizing t with
    | nil => exact h
    | cons update later ih => exact ih _ (bounds_step update h)
  exact hrun {} ⟨by decide, by decide⟩

theorem flag_afterUpdates (updates : List FloatUpdate) (flag : FloatExceptionFlags) :
    (afterUpdates updates).getFloatExceptionFlag flag =
      (lastGiven (FloatUpdate.givenFlag flag) updates).getD false := by
  have hfresh : ({} : Thread).getFloatExceptionFlag flag = false := by cases flag <;> decide
  have hlast := @foldl_eq_lastGiven Bool Thread FloatUpdate FloatUpdate.apply
    (fun t => t.getFloatExceptionFlag flag) (FloatUpdate.givenFlag flag)
    (fun t update => flag_step t update flag) {} updates
  rw [hfresh] at hlast
  exact hlast

theorem mode_afterUpdates (updates : List FloatUpdate) :
    (afterUpdates updates).dynamicFloatRoundingMode.toNat =
      (lastGiven FloatUpdate.givenMode updates).getD 0 :=
  @foldl_eq_lastGiven Nat Thread FloatUpdate FloatUpdate.apply
    (fun t => t.dynamicFloatRoundingMode.toNat) FloatUpdate.givenMode mode_step {} updates

/-- The control state of a thread after a sequence of updates. -/
structure ControlState (updates : List FloatUpdate) (t : Thread) : Prop where
  flags_lt : t.floatExceptionFlags.toNat < 32
  mode_lt : t.dynamicFloatRoundingMode.toNat < 8
  flag : ∀ flag, t.getFloatExceptionFlag flag =
    (lastGiven (FloatUpdate.givenFlag flag) updates).getD false
  otherFlag : ∀ flag other value, other ≠ flag →
    (t.setFloatExceptionFlag other value).getFloatExceptionFlag flag = t.getFloatExceptionFlag flag
  mode : t.dynamicFloatRoundingMode.toNat = (lastGiven FloatUpdate.givenMode updates).getD 0
  packed : t.getFloatControlStatusRegister.toNat =
    t.dynamicFloatRoundingMode.toNat * 32 + t.floatExceptionFlags.toNat
  writeBack : t.setFloatControlStatusRegister t.getFloatControlStatusRegister = t
  readAfter : ∀ value,
    (t.setFloatControlStatusRegister value).getFloatControlStatusRegister.toNat = value.toNat % 256

/-- After any updates of a fresh thread each flag and the rounding mode hold what they were
given last, and the packed register is made of both. -/
theorem control_state (updates : List FloatUpdate) :
    ControlState updates (afterUpdates updates) where
  flags_lt := (bounds_afterUpdates updates).flags
  mode_lt := (bounds_afterUpdates updates).mode
  flag := flag_afterUpdates updates
  otherFlag flag other value hne := by
    have hstep := flag_step (afterUpdates updates) (.setFlag other value) flag
    rw [FloatUpdate.givenFlag, if_neg hne] at hstep
    exact hstep
  mode := mode_afterUpdates updates
  packed := toNat_getControl (bounds_afterUpdates updates)
  writeBack := setControl_getControl (bounds_afterUpdates updates)
  readAfter := getControl_setControl (afterUpdates updates)

end RiscvEmulator.Guarantees
