import RiscvEmulator.Source.Base

/-!
# Decoded instructions

Embeds src/riscv/instruction.hpp. The anonymous union of `immediate` and `floatOp`
is one 32-bit storage: `immediate` reads it whole, and the two one-byte members of
`floatOp` are its first two bytes. Writing a member of `floatOp` keeps the other
bytes of the storage.
-/
namespace RiscvEmulator.Source

/-- `Instruction::Type`. -/
inductive InstructionType where
  -- RV32I Base Instruction Set
  | LUI | AUIPC | JAL | JALR | BEQ | BNE | BLT | BGE | BLTU | BGEU | LB | LH | LW | LBU
  | LHU | SB | SH | SW | ADDI | SLTI | SLTIU | XORI | ORI | ANDI | SLLI | SRLI | SRAI
  | ADD | SUB | SLL | SLT | SLTU | XOR | SRL | SRA | OR | AND | FENCE | FENCETSO | PAUSE
  | ECALL | EBREAK
  -- RV64I Base Instruction Set
  | LWU | LD | SD | ADDIW | SLLIW | SRLIW | SRAIW | ADDW | SUBW | SLLW | SRLW | SRAW
  -- Zifencei Standard Extension
  | FENCEI
  -- Zicsr Standard Extension
  | CSRRW | CSRRS | CSRRC | CSRRWI | CSRRSI | CSRRCI
  -- RV32M Standard Extension
  | MUL | MULH | MULHSU | MULHU | DIV | DIVU | REM | REMU
  -- RV64M Standard Extension
  | MULW | DIVW | DIVUW | REMW | REMUW
  -- RV32A Standard Extension
  | LRW | SCW | AMOSWAPW | AMOADDW | AMOXORW | AMOANDW | AMOORW | AMOMINW | AMOMAXW | AMOMINUW
  | AMOMAXUW
  -- RV64A Standard Extension
  | LRD | SCD | AMOSWAPD | AMOADDD | AMOXORD | AMOANDD | AMOORD | AMOMIND | AMOMAXD | AMOMINUD
  | AMOMAXUD
  -- RV32F Standard Extension
  | FLW | FSW | FMADDS | FMSUBS | FNMADDS | FNMSUBS | FADDS | FSUBS | FMULS | FDIVS | FSQRTS
  | FSGNJS | FSGNJNS | FSGNJXS | FMINS | FMAXS | FEQS | FLTS | FLES | FCLASSS | FCVTWS
  | FCVTSW | FCVTWUS | FCVTSWU | FMVXW | FMVWX
  -- RV64F Standard Extension
  | FCVTLS | FCVTSL | FCVTLUS | FCVTSLU
  -- RV32D Standard Extension
  | FLD | FSD | FMADDD | FMSUBD | FNMADDD | FNMSUBD | FADDD | FSUBD | FMULD | FDIVD | FSQRTD
  | FSGNJD | FSGNJND | FSGNJXD | FMIND | FMAXD | FEQD | FLTD | FLED | FCLASSD | FCVTSD
  | FCVTDS | FCVTWD | FCVTDW | FCVTWUD | FCVTDWU
  -- RV64D Standard Extension
  | FCVTLD | FCVTDL | FCVTLUD | FCVTDLU | FMVXD | FMVDX
  deriving DecidableEq, Repr

structure Instruction where
  immediate : BitVec 32 := 0
  destinationRegister : RegisterIndex := 0
  sourceRegister1 : RegisterIndex := 0
  sourceRegister2 : RegisterIndex := 0
  type : InstructionType := .LUI
  deriving DecidableEq, Repr

namespace Instruction

/-- `floatOp.roundingMode`, byte 0 of the union. -/
def roundingMode (instr : Instruction) : FloatRoundingMode := instr.immediate.extractLsb' 0 8

/-- `floatOp.sourceRegister3`, byte 1 of the union. -/
def sourceRegister3 (instr : Instruction) : RegisterIndex := instr.immediate.extractLsb' 8 8

def setRoundingMode (instr : Instruction) (mode : FloatRoundingMode) : Instruction :=
  { instr with immediate := instr.immediate.extractLsb' 8 24 ++ mode }

def setSourceRegister3 (instr : Instruction) (index : RegisterIndex) : Instruction :=
  { instr with
    immediate := instr.immediate.extractLsb' 16 16 ++ index ++ instr.immediate.extractLsb' 0 8 }

end Instruction
end RiscvEmulator.Source
