import RiscvEmulator.Library.WordBytes
import RiscvEmulator.Source.Instruction

/-!
# Canonical RISC-V encodings

The instruction listings of the RISC-V unprivileged specification for the types the
decoder knows: which bits of the word a type fixes and which fields hold its
operands. Nothing here is taken from the decoder. `encode` is the canonical 32-bit
word of a decoded instruction, `Legal` says that its operands fit the format and
that the fields the format lacks are 0.
-/
namespace RiscvEmulator.Spec
open Source Library

/-- Fixed bits and operand layout of one instruction type. -/
inductive Encoding where
  | r (opcode : BitVec 7) (funct3 : BitVec 3) (funct7 : BitVec 7)
  | i (opcode : BitVec 7) (funct3 : BitVec 3)
  | s (opcode : BitVec 7) (funct3 : BitVec 3)
  | b (opcode : BitVec 7) (funct3 : BitVec 3)
  | u (opcode : BitVec 7)
  | j (opcode : BitVec 7)
  /-- Shift by a 6-bit immediate, below six fixed bits. -/
  | shift (opcode : BitVec 7) (funct3 : BitVec 3) (funct6 : BitVec 6)
  /-- Shift by a 5-bit immediate, below seven fixed bits. -/
  | shiftW (opcode : BitVec 7) (funct3 : BitVec 3) (funct7 : BitVec 7)
  /-- I layout whose immediate is the unsigned fm, pred, succ field. -/
  | fence (opcode : BitVec 7) (funct3 : BitVec 3)
  /-- No operand: the registers are fixed to x0 and the immediate field to `imm`. -/
  | fixed (opcode : BitVec 7) (funct3 : BitVec 3) (imm : BitVec 12)
  /-- R layout with aq and rl below funct5. -/
  | amo (opcode : BitVec 7) (funct3 : BitVec 3) (funct5 : BitVec 5)
  /-- As `amo` with rs2 fixed to x0. -/
  | lr (opcode : BitVec 7) (funct3 : BitVec 3) (funct5 : BitVec 5)
  /-- Fused multiply-add: rs3, format, rs2, rs1, rounding mode, rd. -/
  | r4 (opcode : BitVec 7) (fmt : BitVec 2)
  /-- R layout with a rounding mode for funct3. -/
  | rm (opcode : BitVec 7) (funct7 : BitVec 7)
  /-- As `rm` with rs2 fixed to a sub-opcode. -/
  | unaryRm (opcode : BitVec 7) (funct7 : BitVec 7) (rs2 : BitVec 5)
  /-- R layout with rs2 fixed to a sub-opcode. -/
  | unary (opcode : BitVec 7) (funct7 : BitVec 7) (rs2 : BitVec 5) (funct3 : BitVec 3)
  deriving DecidableEq, Repr

/-- The opcode every row fixes. -/
def Encoding.fixedOpcode : Encoding → BitVec 7
  | .r op _ _ | .i op _ | .s op _ | .b op _ | .u op | .j op | .shift op _ _ | .shiftW op _ _
  | .fence op _ | .fixed op _ _ | .amo op _ _ | .lr op _ _ | .r4 op _ | .rm op _
  | .unaryRm op _ _ | .unary op _ _ _ => op

def opLoad : BitVec 7 := 0b0000011
def opLoadFP : BitVec 7 := 0b0000111
def opMiscMem : BitVec 7 := 0b0001111
def opImm : BitVec 7 := 0b0010011
def opAuipc : BitVec 7 := 0b0010111
def opImm32 : BitVec 7 := 0b0011011
def opStore : BitVec 7 := 0b0100011
def opStoreFP : BitVec 7 := 0b0100111
def opAmo : BitVec 7 := 0b0101111
def opOp : BitVec 7 := 0b0110011
def opLui : BitVec 7 := 0b0110111
def opOp32 : BitVec 7 := 0b0111011
def opMadd : BitVec 7 := 0b1000011
def opMsub : BitVec 7 := 0b1000111
def opNmsub : BitVec 7 := 0b1001011
def opNmadd : BitVec 7 := 0b1001111
def opFP : BitVec 7 := 0b1010011
def opBranch : BitVec 7 := 0b1100011
def opJalr : BitVec 7 := 0b1100111
def opJal : BitVec 7 := 0b1101111
def opSystem : BitVec 7 := 0b1110011

/-- The row of the listings for each type. -/
def encodingOf : InstructionType → Encoding
  | .LUI => .u opLui
  | .AUIPC => .u opAuipc
  | .JAL => .j opJal
  | .JALR => .i opJalr 0b000
  | .BEQ => .b opBranch 0b000
  | .BNE => .b opBranch 0b001
  | .BLT => .b opBranch 0b100
  | .BGE => .b opBranch 0b101
  | .BLTU => .b opBranch 0b110
  | .BGEU => .b opBranch 0b111
  | .LB => .i opLoad 0b000
  | .LH => .i opLoad 0b001
  | .LW => .i opLoad 0b010
  | .LBU => .i opLoad 0b100
  | .LHU => .i opLoad 0b101
  | .SB => .s opStore 0b000
  | .SH => .s opStore 0b001
  | .SW => .s opStore 0b010
  | .ADDI => .i opImm 0b000
  | .SLTI => .i opImm 0b010
  | .SLTIU => .i opImm 0b011
  | .XORI => .i opImm 0b100
  | .ORI => .i opImm 0b110
  | .ANDI => .i opImm 0b111
  | .SLLI => .shift opImm 0b001 0b000000
  | .SRLI => .shift opImm 0b101 0b000000
  | .SRAI => .shift opImm 0b101 0b010000
  | .ADD => .r opOp 0b000 0b0000000
  | .SUB => .r opOp 0b000 0b0100000
  | .SLL => .r opOp 0b001 0b0000000
  | .SLT => .r opOp 0b010 0b0000000
  | .SLTU => .r opOp 0b011 0b0000000
  | .XOR => .r opOp 0b100 0b0000000
  | .SRL => .r opOp 0b101 0b0000000
  | .SRA => .r opOp 0b101 0b0100000
  | .OR => .r opOp 0b110 0b0000000
  | .AND => .r opOp 0b111 0b0000000
  | .FENCE => .fence opMiscMem 0b000
  | .FENCETSO => .fixed opMiscMem 0b000 0b100000110011
  | .PAUSE => .fixed opMiscMem 0b000 0b000000010000
  | .ECALL => .fixed opSystem 0b000 0b000000000000
  | .EBREAK => .fixed opSystem 0b000 0b000000000001
  | .LWU => .i opLoad 0b110
  | .LD => .i opLoad 0b011
  | .SD => .s opStore 0b011
  | .ADDIW => .i opImm32 0b000
  | .SLLIW => .shiftW opImm32 0b001 0b0000000
  | .SRLIW => .shiftW opImm32 0b101 0b0000000
  | .SRAIW => .shiftW opImm32 0b101 0b0100000
  | .ADDW => .r opOp32 0b000 0b0000000
  | .SUBW => .r opOp32 0b000 0b0100000
  | .SLLW => .r opOp32 0b001 0b0000000
  | .SRLW => .r opOp32 0b101 0b0000000
  | .SRAW => .r opOp32 0b101 0b0100000
  | .FENCEI => .i opMiscMem 0b001
  | .CSRRW => .i opSystem 0b001
  | .CSRRS => .i opSystem 0b010
  | .CSRRC => .i opSystem 0b011
  | .CSRRWI => .i opSystem 0b101
  | .CSRRSI => .i opSystem 0b110
  | .CSRRCI => .i opSystem 0b111
  | .MUL => .r opOp 0b000 0b0000001
  | .MULH => .r opOp 0b001 0b0000001
  | .MULHSU => .r opOp 0b010 0b0000001
  | .MULHU => .r opOp 0b011 0b0000001
  | .DIV => .r opOp 0b100 0b0000001
  | .DIVU => .r opOp 0b101 0b0000001
  | .REM => .r opOp 0b110 0b0000001
  | .REMU => .r opOp 0b111 0b0000001
  | .MULW => .r opOp32 0b000 0b0000001
  | .DIVW => .r opOp32 0b100 0b0000001
  | .DIVUW => .r opOp32 0b101 0b0000001
  | .REMW => .r opOp32 0b110 0b0000001
  | .REMUW => .r opOp32 0b111 0b0000001
  | .LRW => .lr opAmo 0b010 0b00010
  | .SCW => .amo opAmo 0b010 0b00011
  | .AMOSWAPW => .amo opAmo 0b010 0b00001
  | .AMOADDW => .amo opAmo 0b010 0b00000
  | .AMOXORW => .amo opAmo 0b010 0b00100
  | .AMOANDW => .amo opAmo 0b010 0b01100
  | .AMOORW => .amo opAmo 0b010 0b01000
  | .AMOMINW => .amo opAmo 0b010 0b10000
  | .AMOMAXW => .amo opAmo 0b010 0b10100
  | .AMOMINUW => .amo opAmo 0b010 0b11000
  | .AMOMAXUW => .amo opAmo 0b010 0b11100
  | .LRD => .lr opAmo 0b011 0b00010
  | .SCD => .amo opAmo 0b011 0b00011
  | .AMOSWAPD => .amo opAmo 0b011 0b00001
  | .AMOADDD => .amo opAmo 0b011 0b00000
  | .AMOXORD => .amo opAmo 0b011 0b00100
  | .AMOANDD => .amo opAmo 0b011 0b01100
  | .AMOORD => .amo opAmo 0b011 0b01000
  | .AMOMIND => .amo opAmo 0b011 0b10000
  | .AMOMAXD => .amo opAmo 0b011 0b10100
  | .AMOMINUD => .amo opAmo 0b011 0b11000
  | .AMOMAXUD => .amo opAmo 0b011 0b11100
  | .FLW => .i opLoadFP 0b010
  | .FSW => .s opStoreFP 0b010
  | .FMADDS => .r4 opMadd 0b00
  | .FMSUBS => .r4 opMsub 0b00
  | .FNMADDS => .r4 opNmadd 0b00
  | .FNMSUBS => .r4 opNmsub 0b00
  | .FADDS => .rm opFP 0b0000000
  | .FSUBS => .rm opFP 0b0000100
  | .FMULS => .rm opFP 0b0001000
  | .FDIVS => .rm opFP 0b0001100
  | .FSQRTS => .unaryRm opFP 0b0101100 0b00000
  | .FSGNJS => .r opFP 0b000 0b0010000
  | .FSGNJNS => .r opFP 0b001 0b0010000
  | .FSGNJXS => .r opFP 0b010 0b0010000
  | .FMINS => .r opFP 0b000 0b0010100
  | .FMAXS => .r opFP 0b001 0b0010100
  | .FEQS => .r opFP 0b010 0b1010000
  | .FLTS => .r opFP 0b001 0b1010000
  | .FLES => .r opFP 0b000 0b1010000
  | .FCLASSS => .unary opFP 0b1110000 0b00000 0b001
  | .FCVTWS => .unaryRm opFP 0b1100000 0b00000
  | .FCVTSW => .unaryRm opFP 0b1101000 0b00000
  | .FCVTWUS => .unaryRm opFP 0b1100000 0b00001
  | .FCVTSWU => .unaryRm opFP 0b1101000 0b00001
  | .FMVXW => .unary opFP 0b1110000 0b00000 0b000
  | .FMVWX => .unary opFP 0b1111000 0b00000 0b000
  | .FCVTLS => .unaryRm opFP 0b1100000 0b00010
  | .FCVTSL => .unaryRm opFP 0b1101000 0b00010
  | .FCVTLUS => .unaryRm opFP 0b1100000 0b00011
  | .FCVTSLU => .unaryRm opFP 0b1101000 0b00011
  | .FLD => .i opLoadFP 0b011
  | .FSD => .s opStoreFP 0b011
  | .FMADDD => .r4 opMadd 0b01
  | .FMSUBD => .r4 opMsub 0b01
  | .FNMADDD => .r4 opNmadd 0b01
  | .FNMSUBD => .r4 opNmsub 0b01
  | .FADDD => .rm opFP 0b0000001
  | .FSUBD => .rm opFP 0b0000101
  | .FMULD => .rm opFP 0b0001001
  | .FDIVD => .rm opFP 0b0001101
  | .FSQRTD => .unaryRm opFP 0b0101101 0b00000
  | .FSGNJD => .r opFP 0b000 0b0010001
  | .FSGNJND => .r opFP 0b001 0b0010001
  | .FSGNJXD => .r opFP 0b010 0b0010001
  | .FMIND => .r opFP 0b000 0b0010101
  | .FMAXD => .r opFP 0b001 0b0010101
  | .FEQD => .r opFP 0b010 0b1010001
  | .FLTD => .r opFP 0b001 0b1010001
  | .FLED => .r opFP 0b000 0b1010001
  | .FCLASSD => .unary opFP 0b1110001 0b00000 0b001
  | .FCVTSD => .unaryRm opFP 0b0100000 0b00001
  | .FCVTDS => .unaryRm opFP 0b0100001 0b00000
  | .FCVTWD => .unaryRm opFP 0b1100001 0b00000
  | .FCVTDW => .unaryRm opFP 0b1101001 0b00000
  | .FCVTWUD => .unaryRm opFP 0b1100001 0b00001
  | .FCVTDWU => .unaryRm opFP 0b1101001 0b00001
  | .FCVTLD => .unaryRm opFP 0b1100001 0b00010
  | .FCVTDL => .unaryRm opFP 0b1101001 0b00010
  | .FCVTLUD => .unaryRm opFP 0b1100001 0b00011
  | .FCVTDLU => .unaryRm opFP 0b1101001 0b00011
  | .FMVXD => .unary opFP 0b1110001 0b00000 0b000
  | .FMVDX => .unary opFP 0b1111001 0b00000 0b000

/-- The extension a type belongs to, as the source groups its types. -/
inductive Extension where
  | base | zifencei | zicsr | m | a | float
  deriving DecidableEq, Repr

def extensionOf : InstructionType → Extension
  | .LUI | .AUIPC | .JAL | .JALR | .BEQ | .BNE | .BLT | .BGE | .BLTU | .BGEU | .LB | .LH | .LW
  | .LBU | .LHU | .SB | .SH | .SW | .ADDI | .SLTI | .SLTIU | .XORI | .ORI | .ANDI | .SLLI | .SRLI
  | .SRAI | .ADD | .SUB | .SLL | .SLT | .SLTU | .XOR | .SRL | .SRA | .OR | .AND | .FENCE
  | .FENCETSO | .PAUSE | .ECALL | .EBREAK | .LWU | .LD | .SD | .ADDIW | .SLLIW | .SRLIW | .SRAIW
  | .ADDW | .SUBW | .SLLW | .SRLW | .SRAW => .base
  | .FENCEI => .zifencei
  | .CSRRW | .CSRRS | .CSRRC | .CSRRWI | .CSRRSI | .CSRRCI => .zicsr
  | .MUL | .MULH | .MULHSU | .MULHU | .DIV | .DIVU | .REM | .REMU | .MULW | .DIVW | .DIVUW
  | .REMW | .REMUW => .m
  | .LRW | .SCW | .AMOSWAPW | .AMOADDW | .AMOXORW | .AMOANDW | .AMOORW | .AMOMINW | .AMOMAXW
  | .AMOMINUW | .AMOMAXUW | .LRD | .SCD | .AMOSWAPD | .AMOADDD | .AMOXORD | .AMOANDD | .AMOORD
  | .AMOMIND | .AMOMAXD | .AMOMINUD | .AMOMAXUD => .a
  | .FLW | .FSW | .FMADDS | .FMSUBS | .FNMADDS | .FNMSUBS | .FADDS | .FSUBS | .FMULS | .FDIVS
  | .FSQRTS | .FSGNJS | .FSGNJNS | .FSGNJXS | .FMINS | .FMAXS | .FEQS | .FLTS | .FLES | .FCLASSS
  | .FCVTWS | .FCVTSW | .FCVTWUS | .FCVTSWU | .FMVXW | .FMVWX | .FCVTLS | .FCVTSL | .FCVTLUS
  | .FCVTSLU | .FLD | .FSD | .FMADDD | .FMSUBD | .FNMADDD | .FNMSUBD | .FADDD | .FSUBD | .FMULD
  | .FDIVD | .FSQRTD | .FSGNJD | .FSGNJND | .FSGNJXD | .FMIND | .FMAXD | .FEQD | .FLTD | .FLED
  | .FCLASSD | .FCVTSD | .FCVTDS | .FCVTWD | .FCVTDW | .FCVTWUD | .FCVTDWU | .FCVTLD | .FCVTDL
  | .FCVTLUD | .FCVTDLU | .FMVXD | .FMVDX => .float

/-- RV64I, Zifencei, M and A: every declared type but the CSR and floating-point ones. -/
def IsInteger (type : InstructionType) : Prop :=
  extensionOf type ≠ .zicsr ∧ extensionOf type ≠ .float

/-- RV64F and RV64D. -/
def IsFloat (type : InstructionType) : Prop := extensionOf type = .float

instance (type : InstructionType) : Decidable (IsInteger type) :=
  inferInstanceAs (Decidable (_ ∧ _))

instance (type : InstructionType) : Decidable (IsFloat type) :=
  inferInstanceAs (Decidable (_ = _))

section Layout
open InstructionFormat

/-- The word of one row with the operands of `instr`. -/
def Encoding.assemble (encoding : Encoding) (instr : Instruction) : BitVec 32 :=
  let rd := instr.destinationRegister.setWidth 5
  let rs1 := instr.sourceRegister1.setWidth 5
  let rs2 := instr.sourceRegister2.setWidth 5
  let mode := instr.roundingMode.setWidth 3
  match encoding with
  | .r opcode funct3 funct7 => packR funct7 rs2 rs1 funct3 rd opcode
  | .i opcode funct3 => packI (instr.immediate.setWidth 12) rs1 funct3 rd opcode
  | .s opcode funct3 => packS (instr.immediate.setWidth 12) rs2 rs1 funct3 opcode
  | .b opcode funct3 => packB (instr.immediate.extractLsb' 1 12) rs2 rs1 funct3 opcode
  | .u opcode => packU (instr.immediate.extractLsb' 12 20) rd opcode
  | .j opcode => packJ (instr.immediate.extractLsb' 1 20) rd opcode
  | .shift opcode funct3 funct6 =>
    packI (funct6 ++ instr.immediate.setWidth 6) rs1 funct3 rd opcode
  | .shiftW opcode funct3 funct7 =>
    packI (funct7 ++ instr.immediate.setWidth 5) rs1 funct3 rd opcode
  | .fence opcode funct3 => packI (instr.immediate.setWidth 12) rs1 funct3 rd opcode
  | .fixed opcode funct3 imm => packI imm 0 funct3 0 opcode
  | .amo opcode funct3 funct5 =>
    packR (funct5 ++ instr.immediate.setWidth 2) rs2 rs1 funct3 rd opcode
  | .lr opcode funct3 funct5 => packR (funct5 ++ instr.immediate.setWidth 2) 0 rs1 funct3 rd opcode
  | .r4 opcode fmt => packR (instr.sourceRegister3.setWidth 5 ++ fmt) rs2 rs1 mode rd opcode
  | .rm opcode funct7 => packR funct7 rs2 rs1 mode rd opcode
  | .unaryRm opcode funct7 sub => packR funct7 sub rs1 mode rd opcode
  | .unary opcode funct7 sub funct3 => packR funct7 sub rs1 funct3 rd opcode

/-- The canonical encoding of a decoded instruction. -/
def encode (instr : Instruction) : BitVec 32 := (encodingOf instr.type).assemble instr

def encodeProgram (instrs : List Instruction) : List Byte :=
  (instrs.map encode).flatMap WordBytes.wordBytes

/-- The instruction of type `type` whose operands stand in a word of one row. -/
def Encoding.disassemble (encoding : Encoding) (type : InstructionType) (w : BitVec 32) :
    Instruction :=
  let rd := (InstructionFormat.rd w).setWidth 8
  let rs1 := (InstructionFormat.rs1 w).setWidth 8
  let rs2 := (InstructionFormat.rs2 w).setWidth 8
  let mode := (InstructionFormat.funct3 w).setWidth 32
  let aqrl := ((InstructionFormat.funct7 w).extractLsb' 0 2).setWidth 32
  match encoding with
  | .r .. =>
    { destinationRegister := rd, sourceRegister1 := rs1, sourceRegister2 := rs2, type := type }
  | .i .. =>
    { immediate := (immI w).signExtend 32, destinationRegister := rd, sourceRegister1 := rs1,
      type := type }
  | .s .. =>
    { immediate := (immS w).signExtend 32, sourceRegister1 := rs1, sourceRegister2 := rs2,
      type := type }
  | .b .. =>
    { immediate := (immB w ++ 0#1).signExtend 32, sourceRegister1 := rs1, sourceRegister2 := rs2,
      type := type }
  | .u .. => { immediate := immU w ++ 0#12, destinationRegister := rd, type := type }
  | .j .. =>
    { immediate := (immJ w ++ 0#1).signExtend 32, destinationRegister := rd, type := type }
  | .shift .. =>
    { immediate := ((immI w).extractLsb' 0 6).setWidth 32, destinationRegister := rd,
      sourceRegister1 := rs1, type := type }
  | .shiftW .. =>
    { immediate := ((immI w).extractLsb' 0 5).setWidth 32, destinationRegister := rd,
      sourceRegister1 := rs1, type := type }
  | .fence .. =>
    { immediate := (immI w).setWidth 32, destinationRegister := rd, sourceRegister1 := rs1,
      type := type }
  | .fixed opcode _ imm =>
    { immediate := if opcode = opMiscMem then imm.setWidth 32 else 0, type := type }
  | .amo .. =>
    { immediate := aqrl, destinationRegister := rd, sourceRegister1 := rs1, sourceRegister2 := rs2,
      type := type }
  | .lr .. =>
    { immediate := aqrl, destinationRegister := rd, sourceRegister1 := rs1, type := type }
  | .r4 .. =>
    { immediate := mode ||| ((InstructionFormat.funct7 w).extractLsb' 2 5).setWidth 32 <<< 8,
      destinationRegister := rd, sourceRegister1 := rs1, sourceRegister2 := rs2, type := type }
  | .rm .. =>
    { immediate := mode, destinationRegister := rd, sourceRegister1 := rs1,
      sourceRegister2 := rs2, type := type }
  | .unaryRm .. =>
    { immediate := mode, destinationRegister := rd, sourceRegister1 := rs1, type := type }
  | .unary .. => { destinationRegister := rd, sourceRegister1 := rs1, type := type }

/-- Every bit the row fixes has its value in `w`. -/
def Encoding.Matches (encoding : Encoding) (w : BitVec 32) : Prop :=
  match encoding with
  | .r op f3 f7 => opcode w = op ∧ funct3 w = f3 ∧ funct7 w = f7
  | .i op f3 | .s op f3 | .b op f3 | .fence op f3 => opcode w = op ∧ funct3 w = f3
  | .u op | .j op => opcode w = op
  | .shift op f3 f6 => opcode w = op ∧ funct3 w = f3 ∧ (immI w).extractLsb' 6 6 = f6
  | .shiftW op f3 f7 => opcode w = op ∧ funct3 w = f3 ∧ funct7 w = f7
  | .fixed op f3 imm => opcode w = op ∧ funct3 w = f3 ∧ immI w = imm ∧ rs1 w = 0 ∧ rd w = 0
  | .amo op f3 f5 => opcode w = op ∧ funct3 w = f3 ∧ (funct7 w).extractLsb' 2 5 = f5
  | .lr op f3 f5 =>
    opcode w = op ∧ funct3 w = f3 ∧ (funct7 w).extractLsb' 2 5 = f5 ∧ rs2 w = 0
  | .r4 op fmt => opcode w = op ∧ (funct7 w).extractLsb' 0 2 = fmt
  | .rm op f7 => opcode w = op ∧ funct7 w = f7
  | .unaryRm op f7 sub => opcode w = op ∧ funct7 w = f7 ∧ rs2 w = sub
  | .unary op f7 sub f3 => opcode w = op ∧ funct7 w = f7 ∧ rs2 w = sub ∧ funct3 w = f3

end Layout

/-- The five rounding modes and the dynamic one; 5 and 6 are reserved. -/
def LegalRoundingMode (mode : FloatRoundingMode) : Prop := mode.toNat ≤ 4 ∨ mode.toNat = 7

/-- The operands fit the format of the type, and the fields the format lacks are 0. -/
def Legal (instr : Instruction) : Prop :=
  instr.destinationRegister.toNat < 32 ∧ instr.sourceRegister1.toNat < 32 ∧
  instr.sourceRegister2.toNat < 32 ∧
  match encodingOf instr.type with
  | .r .. => instr.immediate = 0
  | .i .. =>
    instr.sourceRegister2 = 0 ∧ -2048 ≤ instr.immediate.toInt ∧ instr.immediate.toInt < 2048
  | .s .. =>
    instr.destinationRegister = 0 ∧ -2048 ≤ instr.immediate.toInt ∧ instr.immediate.toInt < 2048
  | .b .. =>
    instr.destinationRegister = 0 ∧ -4096 ≤ instr.immediate.toInt ∧
      instr.immediate.toInt < 4096 ∧ instr.immediate.toInt % 2 = 0
  | .u .. =>
    instr.sourceRegister1 = 0 ∧ instr.sourceRegister2 = 0 ∧ instr.immediate.toNat % 4096 = 0
  | .j .. =>
    instr.sourceRegister1 = 0 ∧ instr.sourceRegister2 = 0 ∧ -1048576 ≤ instr.immediate.toInt ∧
      instr.immediate.toInt < 1048576 ∧ instr.immediate.toInt % 2 = 0
  | .shift .. => instr.sourceRegister2 = 0 ∧ instr.immediate.toNat < 64
  | .shiftW .. => instr.sourceRegister2 = 0 ∧ instr.immediate.toNat < 32
  | .fence .. => instr.sourceRegister2 = 0 ∧ instr.immediate.toNat < 4096
  | .fixed opcode _ imm =>
    -- FENCE.TSO and PAUSE are fences, whose immediate is the fence field.
    instr.destinationRegister = 0 ∧ instr.sourceRegister1 = 0 ∧ instr.sourceRegister2 = 0 ∧
      instr.immediate = if opcode = opMiscMem then imm.setWidth 32 else 0
  | .amo .. => instr.immediate.toNat < 4
  | .lr .. => instr.sourceRegister2 = 0 ∧ instr.immediate.toNat < 4
  | .r4 .. => LegalRoundingMode instr.roundingMode ∧ instr.sourceRegister3.toNat < 32
  | .rm .. => LegalRoundingMode instr.roundingMode
  | .unaryRm .. => instr.sourceRegister2 = 0 ∧ LegalRoundingMode instr.roundingMode
  | .unary .. => instr.sourceRegister2 = 0

/-- The same type with the same operands, where only the fields of the row's format count:
a sub-opcode in rs2 or funct3 is not an operand. -/
def SameOperands (a b : Instruction) : Prop :=
  a.type = b.type ∧
  match encodingOf a.type with
  | .r .. =>
    a.destinationRegister = b.destinationRegister ∧ a.sourceRegister1 = b.sourceRegister1 ∧
      a.sourceRegister2 = b.sourceRegister2
  | .r4 .. =>
    a.destinationRegister = b.destinationRegister ∧ a.sourceRegister1 = b.sourceRegister1 ∧
      a.sourceRegister2 = b.sourceRegister2 ∧ a.sourceRegister3 = b.sourceRegister3 ∧
      a.roundingMode = b.roundingMode
  | .rm .. =>
    a.destinationRegister = b.destinationRegister ∧ a.sourceRegister1 = b.sourceRegister1 ∧
      a.sourceRegister2 = b.sourceRegister2 ∧ a.roundingMode = b.roundingMode
  | .unaryRm .. =>
    a.destinationRegister = b.destinationRegister ∧ a.sourceRegister1 = b.sourceRegister1 ∧
      a.roundingMode = b.roundingMode
  | .unary .. =>
    a.destinationRegister = b.destinationRegister ∧ a.sourceRegister1 = b.sourceRegister1
  | _ => a = b

instance (mode : FloatRoundingMode) : Decidable (LegalRoundingMode mode) :=
  inferInstanceAs (Decidable (_ ∨ _))

end RiscvEmulator.Spec
