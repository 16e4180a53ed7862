import RiscvEmulator.Guarantees.CanonicalWords
import RiscvEmulator.Guarantees.DecoderPrograms

/-!
# Amounts of decoded immediate shifts

`decodeOpImm` and `decodeOpImm32` tell the shifts apart by bit 10 of the immediate and
look at no other upper bit, where `decodeOp` compares the whole of funct7. A word with
other upper bits is accepted, and its shift amount is out of range; the words with the
required bits are exactly those whose amount is in range.
-/
namespace RiscvEmulator.Guarantees
open Source Spec Library InstructionFormat WordBytes

variable {w : BitVec 32} {instr r : Instruction}

/-- The width of the operand an immediate shift moves. -/
def shiftWidth : InstructionType → Option Nat
  | .SLLI | .SRLI | .SRAI => some 64
  | .SLLIW | .SRLIW | .SRAIW => some 32
  | _ => none

/-- An amount the executor may shift by. -/
def InRange (immediate : BitVec 32) (width : Nat) : Prop :=
  0 ≤ immediate.toInt ∧ immediate.toInt < width

def ShiftInRange (instr : Instruction) : Prop :=
  ∀ width, shiftWidth instr.type = some width → InRange instr.immediate width

/-- The immediate bits above the shift amount are those of the shift. -/
structure RequiredShiftBits (w : BitVec 32) : Prop where
  left : opcode w = opImm → funct3 w = 0b001 → (immI w).extractLsb' 6 6 = 0b000000
  right : opcode w = opImm → funct3 w = 0b101 →
    (immI w).extractLsb' 6 6 = 0b000000 ∨ (immI w).extractLsb' 6 6 = 0b010000
  leftWord : opcode w = opImm32 → funct3 w = 0b001 → (immI w).extractLsb' 5 7 = 0b0000000
  rightWord : opcode w = opImm32 → funct3 w = 0b101 →
    (immI w).extractLsb' 5 7 = 0b0000000 ∨ (immI w).extractLsb' 5 7 = 0b0100000

/-- What the decoder promises of the shifts of a program. -/
structure ShiftsChecked (native : Endian) (program : List Byte) : Prop where
  inRange : ∀ instrs, decodeInstructions native program = .ok instrs →
    ∀ instr ∈ instrs, ShiftInRange instr
  rejected : ∀ w ∈ words program, ¬RequiredShiftBits w → ∀ r, decodeInstruction {} w ≠ .ok r

section Amounts

theorem shiftInRange_iff {width : Nat} (h : shiftWidth instr.type = some width) :
    ShiftInRange instr ↔ InRange instr.immediate width := by
  simp [ShiftInRange, h]

theorem shiftInRange_of_none (h : shiftWidth instr.type = none) : ShiftInRange instr := by
  simp [ShiftInRange, h]

theorem inRange_signExtend (imm : BitVec 12) {width : Nat} (hwidth : width ≤ 2048) :
    InRange (imm.signExtend 32) width ↔ imm.toNat < width := by
  have hlt := imm.isLt
  unfold InRange
  rw [BitVec.toInt_signExtend_of_le (by decide), BitVec.toInt_eq_toNat_cond]
  split <;> omega

theorem inRange_six (imm : BitVec 12) :
    InRange (imm.signExtend 32) 64 ↔ imm.extractLsb' 6 6 = 0b000000 := by
  have hlt := imm.isLt
  rw [inRange_signExtend imm (by decide), ← BitVec.toNat_inj, BitVec.extractLsb'_toNat,
    Nat.shiftRight_eq_div_pow]
  simp only [BitVec.reduceToNat]
  omega

theorem inRange_seven (imm : BitVec 12) :
    InRange (imm.signExtend 32) 32 ↔ imm.extractLsb' 5 7 = 0b0000000 := by
  have hlt := imm.isLt
  rw [inRange_signExtend imm (by decide), ← BitVec.toNat_inj, BitVec.extractLsb'_toNat,
    Nat.shiftRight_eq_div_pow]
  simp only [BitVec.reduceToNat]
  omega

/-- Bit 10 is cleared in the field, below the bits the sign fills in. -/
theorem clearBit_signExtend (imm : BitVec 12) :
    clearBit (imm.signExtend 32) 10 = (imm &&& 0b101111111111).signExtend 32 := by
  have hmsb : (0b101111111111#12).msb = true := rfl
  apply BitVec.eq_of_getLsbD_eq
  intro i hi
  rw [getLsbD_clearBit _ _ hi]
  simp only [BitVec.getLsbD_signExtend, BitVec.getLsbD_and, BitVec.msb_and]
  interval_cases i <;> simp [hmsb]

/-- Without bit 10, the two patterns of the right shifts are one. -/
theorem inRange_cleared_six (imm : BitVec 12) :
    InRange (clearBit (imm.signExtend 32) 10) 64 ↔
      imm.extractLsb' 6 6 = 0b000000 ∨ imm.extractLsb' 6 6 = 0b010000 := by
  rw [clearBit_signExtend, inRange_six, BitVec.extractLsb'_and]
  generalize imm.extractLsb' 6 6 = upper
  revert upper
  decide

theorem inRange_cleared_seven (imm : BitVec 12) :
    InRange (clearBit (imm.signExtend 32) 10) 32 ↔
      imm.extractLsb' 5 7 = 0b0000000 ∨ imm.extractLsb' 5 7 = 0b0100000 := by
  rw [clearBit_signExtend, inRange_seven, BitVec.extractLsb'_and]
  generalize imm.extractLsb' 5 7 = upper
  revert upper
  decide

end Amounts

section Words

theorem requiredShiftBits_opImm (hop : opcode w = opImm) : RequiredShiftBits w ↔
    (funct3 w = 0b001 → (immI w).extractLsb' 6 6 = 0b000000) ∧
      (funct3 w = 0b101 →
        (immI w).extractLsb' 6 6 = 0b000000 ∨ (immI w).extractLsb' 6 6 = 0b010000) := by
  have hne : ¬opcode w = opImm32 := by
    rw [hop]
    decide
  constructor
  · exact fun h => ⟨h.left hop, h.right hop⟩
  · exact fun h => ⟨fun _ => h.1, fun _ => h.2, fun ho => absurd ho hne, fun ho => absurd ho hne⟩

theorem requiredShiftBits_opImm32 (hop : opcode w = opImm32) : RequiredShiftBits w ↔
    (funct3 w = 0b001 → (immI w).extractLsb' 5 7 = 0b0000000) ∧
      (funct3 w = 0b101 →
        (immI w).extractLsb' 5 7 = 0b0000000 ∨ (immI w).extractLsb' 5 7 = 0b0100000) := by
  have hne : ¬opcode w = opImm := by
    rw [hop]
    decide
  constructor
  · exact fun h => ⟨h.leftWord hop, h.rightWord hop⟩
  · exact fun h => ⟨fun ho => absurd ho hne, fun ho => absurd ho hne, fun _ => h.1, fun _ => h.2⟩

theorem shiftInRange_opImm (hop : opcode w = opImm) (h : decodeOpImm w instr = .ok r) :
    ShiftInRange r ↔ RequiredShiftBits w := by
  rw [requiredShiftBits_opImm hop]
  unfold decodeOpImm readFieldsI at h
  simp only [getFunct3_eq, getImmediateI_eq] at h
  split at h
  case h_2 h3 =>
    obtain rfl := Except.ok.inj h
    rw [shiftInRange_iff rfl, eq_of_setWidth (by decide) h3]
    simp [inRange_six]
  case h_6 h3 =>
    have hwidth : shiftWidth r.type = some 64 ∧
        r.immediate = clearBit ((immI w).signExtend 32) 10 := by
      split at h
      · obtain rfl := Except.ok.inj h
        exact ⟨rfl, rfl⟩
      · next hflag =>
        obtain rfl := Except.ok.inj h
        exact ⟨rfl, (clearBit_of_not_hasBit (by decide) (Bool.eq_false_iff.mpr hflag)).symm⟩
    rw [shiftInRange_iff hwidth.1, hwidth.2, inRange_cleared_six, eq_of_setWidth (by decide) h3]
    simp
  case h_9 h0 h1 h2 h3 h4 h5 h6 h7 => exact (funct3_exhausted _ h0 h1 h2 h3 h4 h5 h6 h7).elim
  all_goals
    next h3 =>
    obtain rfl := Except.ok.inj h
    rw [eq_of_setWidth (by decide) h3]
    refine ⟨fun _ => ?_, fun _ => shiftInRange_of_none rfl⟩
    simp

theorem shiftInRange_opImm32 (hop : opcode w = opImm32) (h : decodeOpImm32 w instr = .ok r) :
    ShiftInRange r ↔ RequiredShiftBits w := by
  rw [requiredShiftBits_opImm32 hop]
  unfold decodeOpImm32 readFieldsI at h
  simp only [getFunct3_eq, getImmediateI_eq] at h
  split at h
  case h_1 h3 =>
    obtain rfl := Except.ok.inj h
    rw [eq_of_setWidth (by decide) h3]
    refine ⟨fun _ => ?_, fun _ => shiftInRange_of_none rfl⟩
    simp
  case h_2 h3 =>
    obtain rfl := Except.ok.inj h
    rw [shiftInRange_iff rfl, eq_of_setWidth (by decide) h3]
    simp [inRange_seven]
  case h_3 h3 =>
    have hwidth : shiftWidth r.type = some 32 ∧
        r.immediate = clearBit ((immI w).signExtend 32) 10 := by
      split at h
      · obtain rfl := Except.ok.inj h
        exact ⟨rfl, rfl⟩
      · next hflag =>
        obtain rfl := Except.ok.inj h
        exact ⟨rfl, (clearBit_of_not_hasBit (by decide) (Bool.eq_false_iff.mpr hflag)).symm⟩
    rw [shiftInRange_iff hwidth.1, hwidth.2, inRange_cleared_seven, eq_of_setWidth (by decide) h3]
    simp
  case h_4 => cases h

/-- The immediate shifts are in the two immediate opcodes. -/
theorem shiftWidth_of_opcode {t : InstructionType} (himm : (encodingOf t).fixedOpcode ≠ opImm)
    (himm32 : (encodingOf t).fixedOpcode ≠ opImm32) : shiftWidth t = none := by
  unfold shiftWidth
  split
  case h_1 | h_2 | h_3 => exact absurd rfl himm
  case h_4 | h_5 | h_6 => exact absurd rfl himm32
  case h_7 => rfl

/-- A decoded shift amount is in range exactly when the word has the required bits. -/
theorem shiftInRange_iff_requiredShiftBits (h : decodeInstruction {} w = .ok r) :
    ShiftInRange r ↔ RequiredShiftBits w := by
  by_cases himm : opcode w = opImm
  · rw [(Dispatched.opImm himm).eq] at h
    exact shiftInRange_opImm himm h
  by_cases himm32 : opcode w = opImm32
  · rw [(Dispatched.opImm32 himm32).eq] at h
    exact shiftInRange_opImm32 himm32 h
  have hopcode := decodeInstruction_opcode h
  refine ⟨fun _ => ?_, fun _ => shiftInRange_of_none (shiftWidth_of_opcode ?_ ?_)⟩
  · constructor <;> intro ho
    · exact absurd ho himm
    · exact absurd ho himm
    · exact absurd ho himm32
    · exact absurd ho himm32
  · rw [hopcode]
    exact himm
  · rw [hopcode]
    exact himm32

theorem decodeOpImm_accepts (w : BitVec 32) (instr : Instruction) :
    ∃ r, decodeOpImm w instr = .ok r := by
  unfold decodeOpImm
  dsimp only
  split
  case h_6 => split <;> exact ⟨_, rfl⟩
  all_goals exact ⟨_, rfl⟩

theorem decodeOpImm32_accepts (instr : Instruction) (h3 : funct3 w = 0b001 ∨ funct3 w = 0b101) :
    ∃ r, decodeOpImm32 w instr = .ok r := by
  unfold decodeOpImm32 readFieldsI
  simp only [getFunct3_eq]
  split
  case h_3 => split <;> exact ⟨_, rfl⟩
  case h_4 _ hleft hright =>
    rcases h3 with h3 | h3
    · exact absurd (congrArg (BitVec.setWidth 8) h3) hleft
    · exact absurd (congrArg (BitVec.setWidth 8) h3) hright
  all_goals exact ⟨_, rfl⟩

/-- Whatever its upper bits, the word of an immediate shift is accepted. -/
theorem accepted_of_not_required (h : ¬RequiredShiftBits w) :
    ∃ r, decodeInstruction {} w = .ok r := by
  by_cases himm : opcode w = opImm
  · rw [(Dispatched.opImm himm).eq]
    exact decodeOpImm_accepts w {}
  by_cases hshift : opcode w = opImm32 ∧ (funct3 w = 0b001 ∨ funct3 w = 0b101)
  · rw [(Dispatched.opImm32 hshift.1).eq]
    exact decodeOpImm32_accepts {} hshift.2
  exfalso
  apply h
  constructor <;> intro ho h3
  · exact absurd ho himm
  · exact absurd ho himm
  · exact absurd ⟨ho, .inl h3⟩ hshift
  · exact absurd ⟨ho, .inr h3⟩ hshift

end Words

/-- The amounts of an accepted program are in range exactly when its words have the
required bits. -/
theorem inRange_iff_of_accepted {native : Endian} {program : List Byte} {instrs : List Instruction}
    (haccept : decodeInstructions native program = .ok instrs) :
    (∀ instr ∈ instrs, ShiftInRange instr) ↔ ∀ w ∈ words program, RequiredShiftBits w := by
  obtain ⟨-, hall⟩ := (decodeInstructions_ok_iff _ _ _).mp haccept
  clear haccept
  generalize words program = ws at hall ⊢
  induction hall with
  | nil => simp
  | cons hword _ ih =>
    rw [List.forall_mem_cons, List.forall_mem_cons, ih,
      shiftInRange_iff_requiredShiftBits (decodeWord_ok_low_bits hword).2]

/-- The shifts of a program are checked exactly when no word of it needs the check: none
is an immediate shift with other upper bits. -/
theorem shiftsChecked_iff (native : Endian) (program : List Byte) :
    (ShiftsChecked native program ↔ ∀ w ∈ words program, RequiredShiftBits w) ∧
      ∀ instrs, decodeInstructions native program = .ok instrs →
        ((∀ instr ∈ instrs, ShiftInRange instr) ↔ ∀ w ∈ words program, RequiredShiftBits w) := by
  refine ⟨⟨fun hchecked w hw => ?_, fun hrequired => ⟨fun instrs haccept => ?_, ?_⟩⟩,
    fun instrs haccept => inRange_iff_of_accepted haccept⟩
  · by_contra hbits
    obtain ⟨r, hr⟩ := accepted_of_not_required hbits
    exact hchecked.rejected w hw hbits r hr
  · exact (inRange_iff_of_accepted haccept).mpr hrequired
  · intro w hw hbits
    exact absurd (hrequired w hw) hbits

/-- SLLI with bit 26 set is accepted, and shifts by 64. -/
theorem not_shiftsChecked_slli :
    ¬∀ (native : Endian) (program : List Byte), ShiftsChecked native program := by
  intro h
  have hrange := (h .little (wordBytes 0x04001013)).inRange [{ immediate := 64, type := .SLLI }] rfl
    _ List.mem_cons_self 64 rfl
  exact absurd hrange.2 (by decide)

end RiscvEmulator.Guarantees
