import RiscvEmulator.Library.InstructionFormat
import RiscvEmulator.Source.Decoder

/-!
# The decoder's field readers against the instruction formats

Each `get…` function of the decoder, which masks, shifts and sign-extends 32-bit
words, reads exactly the field or immediate of the RISC-V format it is named after.
Everything proved about the decoder goes through these equations; none of them
unfolds a shift again.
-/
namespace RiscvEmulator.Source
open Library

/-- A field cast to a byte is the slice of its bits. -/
theorem getBits_byte (w : BitVec 32) (firstBit lastBit : Nat) (hfirst : firstBit ≤ lastBit)
    (hlast : lastBit < 32) :
    (getBits w firstBit lastBit).setWidth 8 =
      (w.extractLsb' firstBit (lastBit - firstBit + 1)).setWidth 8 := by
  rw [getBits_eq_extractLsb' w firstBit lastBit hfirst hlast,
    BitVec.setWidth_setWidth_of_le _ (by decide)]

theorem getOpcode_eq (w : BitVec 32) :
    getOpcode w = Opcode.cast ((InstructionFormat.opcode w).setWidth 8) :=
  congrArg Opcode.cast (getBits_byte w 0 6 (by decide) (by decide))

theorem getFunct3_eq (w : BitVec 32) : getFunct3 w = (InstructionFormat.funct3 w).setWidth 8 :=
  getBits_byte w 12 14 (by decide) (by decide)

theorem getFunct7_eq (w : BitVec 32) : getFunct7 w = (InstructionFormat.funct7 w).setWidth 8 :=
  getBits_byte w 25 31 (by decide) (by decide)

theorem getDestinationRegister_eq (w : BitVec 32) :
    getDestinationRegister w = (InstructionFormat.rd w).setWidth 8 :=
  getBits_byte w 7 11 (by decide) (by decide)

theorem getSourceRegister1_eq (w : BitVec 32) :
    getSourceRegister1 w = (InstructionFormat.rs1 w).setWidth 8 :=
  getBits_byte w 15 19 (by decide) (by decide)

theorem getSourceRegister2_eq (w : BitVec 32) :
    getSourceRegister2 w = (InstructionFormat.rs2 w).setWidth 8 :=
  getBits_byte w 20 24 (by decide) (by decide)

theorem getImmediateI_eq (w : BitVec 32) :
    getImmediateI w = (InstructionFormat.immI w).signExtend 32 := by
  have slice : InstructionFormat.immI w = w.extractLsb' 20 12 :=
    BitVec.extractLsb'_append_extractLsb'_eq_extractLsb' rfl
  rw [getImmediateI, signExtend_eq _ 11 (by decide),
    getBits_eq_extractLsb' w 20 31 (by decide) (by decide), slice,
    BitVec.setWidth_setWidth_of_le _ (by decide)]
  simp

theorem getImmediateS_eq (w : BitVec 32) :
    getImmediateS w = (InstructionFormat.immS w).signExtend 32 := by
  rw [getImmediateS, signExtend_eq _ 11 (by decide),
    getBits_eq_extractLsb' w 7 11 (by decide) (by decide),
    getBits_eq_extractLsb' w 25 31 (by decide) (by decide)]
  congr 1
  apply BitVec.eq_of_getLsbD_eq
  intro i hi
  simp only [InstructionFormat.immS, InstructionFormat.funct7, InstructionFormat.rd,
    BitVec.getLsbD_append, BitVec.getLsbD_extractLsb', BitVec.getLsbD_setWidth,
    BitVec.getLsbD_or, BitVec.getLsbD_shiftLeft]
  interval_cases i <;> simp

theorem getImmediateB_eq (w : BitVec 32) :
    getImmediateB w = (InstructionFormat.immB w ++ 0#1).signExtend 32 := by
  rw [getImmediateB, signExtend_eq _ 12 (by decide),
    getBits_eq_extractLsb' w 8 11 (by decide) (by decide),
    getBits_eq_extractLsb' w 25 30 (by decide) (by decide),
    getBits_eq_extractLsb' w 7 7 (by decide) (by decide),
    getBits_eq_extractLsb' w 31 31 (by decide) (by decide)]
  congr 1
  apply BitVec.eq_of_getLsbD_eq
  intro i hi
  simp only [InstructionFormat.immB, InstructionFormat.funct7, InstructionFormat.rd,
    BitVec.getLsbD_append, BitVec.getLsbD_extractLsb', BitVec.getLsbD_setWidth,
    BitVec.getLsbD_or, BitVec.getLsbD_shiftLeft]
  interval_cases i <;> simp

theorem getImmediateU_eq (w : BitVec 32) :
    getImmediateU w = InstructionFormat.immU w ++ 0#12 := by
  rw [getImmediateU, getBits_eq_extractLsb' w 12 31 (by decide) (by decide)]
  apply BitVec.eq_of_getLsbD_eq
  intro i hi
  simp only [InstructionFormat.immU, InstructionFormat.funct7, InstructionFormat.rs2,
    InstructionFormat.rs1, InstructionFormat.funct3, BitVec.getLsbD_append,
    BitVec.getLsbD_extractLsb', BitVec.getLsbD_setWidth, BitVec.getLsbD_shiftLeft]
  interval_cases i <;> simp

theorem getImmediateJ_eq (w : BitVec 32) :
    getImmediateJ w = (InstructionFormat.immJ w ++ 0#1).signExtend 32 := by
  rw [getImmediateJ, signExtend_eq _ 20 (by decide),
    getBits_eq_extractLsb' w 21 30 (by decide) (by decide),
    getBits_eq_extractLsb' w 20 20 (by decide) (by decide),
    getBits_eq_extractLsb' w 12 19 (by decide) (by decide),
    getBits_eq_extractLsb' w 31 31 (by decide) (by decide)]
  congr 1
  apply BitVec.eq_of_getLsbD_eq
  intro i hi
  simp only [InstructionFormat.immJ, InstructionFormat.immU, InstructionFormat.funct7,
    InstructionFormat.rs2, InstructionFormat.rs1, InstructionFormat.funct3,
    BitVec.getLsbD_append, BitVec.getLsbD_extractLsb', BitVec.getLsbD_setWidth,
    BitVec.getLsbD_or, BitVec.getLsbD_shiftLeft]
  interval_cases i <;> simp

end RiscvEmulator.Source
