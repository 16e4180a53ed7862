import RiscvEmulator.Source.Instruction
import RiscvEmulator.Source.Memory

/-!
# The instruction decoder

Embeds src/riscv/instruction.cpp. A `switch` on a `uint8_t` is a match on `BitVec 8`;
where the source's switch has no `default`, the last arm keeps the instruction as it
is, which is what leaving the switch does. Every `throw` constructs the object the
source throws, by value or, at one place, by `new`.
-/
namespace RiscvEmulator.Source

/-- `enum class Opcode : uint8_t`; `unnamed` holds the values that no enumerator names. -/
inductive Opcode where
  | Load | LoadFP | MiscMem | OpImm | AUIPC | OpImm32 | Store | StoreFP | AMO | Op | LUI | Op32
  | MAdd | MSub | NMSub | NMAdd | OpFP | OpV | Branch | JALR | JAL | System | OpVE
  | unnamed (bits : BitVec 8)
  deriving DecidableEq, Repr

/-- `static_cast<Opcode>`. -/
def Opcode.cast (bits : BitVec 8) : Opcode :=
  match bits with
  | 0b0000011 => .Load
  | 0b0000111 => .LoadFP
  | 0b0001111 => .MiscMem
  | 0b0010011 => .OpImm
  | 0b0010111 => .AUIPC
  | 0b0011011 => .OpImm32
  | 0b0100011 => .Store
  | 0b0100111 => .StoreFP
  | 0b0101111 => .AMO
  | 0b0110011 => .Op
  | 0b0110111 => .LUI
  | 0b0111011 => .Op32
  | 0b1000011 => .MAdd
  | 0b1000111 => .MSub
  | 0b1001011 => .NMSub
  | 0b1001111 => .NMAdd
  | 0b1010011 => .OpFP
  | 0b1010111 => .OpV
  | 0b1100011 => .Branch
  | 0b1100111 => .JALR
  | 0b1101111 => .JAL
  | 0b1110011 => .System
  | 0b1110111 => .OpVE
  | _ => .unnamed bits

/-- `throw UnknownInstructionException(encoded, clazz)`. -/
def throwUnknown (encoded : BitVec 32) (clazz : String) : Except Thrown Instruction :=
  .error (.value (.unknownInstruction encoded clazz))

/-- `throw new UnknownInstructionException(encoded, clazz)`. -/
def throwNewUnknown (encoded : BitVec 32) (clazz : String) : Except Thrown Instruction :=
  .error (.pointer (.unknownInstruction encoded clazz))

/-- `instr.type = type; break;` -/
def setType (instr : Instruction) (type : InstructionType) : Except Thrown Instruction :=
  .ok { instr with type := type }

def isEncodingCompressed (lowestByte : Byte) : Bool := lowestByte &&& 0b11 != 0b11

def getOpcode (encoded : BitVec 32) : Opcode := Opcode.cast ((getBits encoded 0 6).setWidth 8)

def getFunct3 (encoded : BitVec 32) : BitVec 8 := (getBits encoded 12 14).setWidth 8

def getFunct7 (encoded : BitVec 32) : BitVec 8 := (getBits encoded 25 31).setWidth 8

def getDestinationRegister (encoded : BitVec 32) : RegisterIndex :=
  (getBits encoded 7 11).setWidth 8

def getSourceRegister1 (encoded : BitVec 32) : RegisterIndex := (getBits encoded 15 19).setWidth 8

def getSourceRegister2 (encoded : BitVec 32) : RegisterIndex := (getBits encoded 20 24).setWidth 8

def getImmediateI (encoded : BitVec 32) : BitVec 32 := signExtend (getBits encoded 20 31) 11

def getImmediateS (encoded : BitVec 32) : BitVec 32 :=
  signExtend (getBits encoded 7 11 ||| (getBits encoded 25 31 <<< 5)) 11

def getImmediateB (encoded : BitVec 32) : BitVec 32 :=
  signExtend ((getBits encoded 8 11 <<< 1) ||| (getBits encoded 25 30 <<< 5) |||
    (getBits encoded 7 7 <<< 11) ||| (getBits encoded 31 31 <<< 12)) 12

def getImmediateU (encoded : BitVec 32) : BitVec 32 := getBits encoded 12 31 <<< 12

def getImmediateJ (encoded : BitVec 32) : BitVec 32 :=
  signExtend ((getBits encoded 21 30 <<< 1) ||| (getBits encoded 20 20 <<< 11) |||
    (getBits encoded 12 19 <<< 12) ||| (getBits encoded 31 31 <<< 20)) 20

/-- Returns the instruction with `funct3` and `funct7`, the source's output parameters. -/
def readFieldsR (encoded : BitVec 32) (instr : Instruction) :
    Instruction × BitVec 8 × BitVec 8 :=
  ({ instr with
      sourceRegister1 := getSourceRegister1 encoded
      sourceRegister2 := getSourceRegister2 encoded
      destinationRegister := getDestinationRegister encoded },
    getFunct3 encoded, getFunct7 encoded)

def readFieldsI (encoded : BitVec 32) (instr : Instruction) : Instruction × BitVec 8 :=
  ({ instr with
      sourceRegister1 := getSourceRegister1 encoded
      destinationRegister := getDestinationRegister encoded
      immediate := getImmediateI encoded },
    getFunct3 encoded)

def readFieldsS (encoded : BitVec 32) (instr : Instruction) : Instruction × BitVec 8 :=
  ({ instr with
      sourceRegister1 := getSourceRegister1 encoded
      sourceRegister2 := getSourceRegister2 encoded
      immediate := getImmediateS encoded },
    getFunct3 encoded)

def readFieldsB (encoded : BitVec 32) (instr : Instruction) : Instruction × BitVec 8 :=
  ({ instr with
      sourceRegister1 := getSourceRegister1 encoded
      sourceRegister2 := getSourceRegister2 encoded
      immediate := getImmediateB encoded },
    getFunct3 encoded)

def readFieldsU (encoded : BitVec 32) (instr : Instruction) : Instruction :=
  { instr with
    destinationRegister := getDestinationRegister encoded
    immediate := getImmediateU encoded }

def readFieldsJ (encoded : BitVec 32) (instr : Instruction) : Instruction :=
  { instr with
    destinationRegister := getDestinationRegister encoded
    immediate := getImmediateJ encoded }

def decodeBranch (encoded : BitVec 32) (instr : Instruction) : Except Thrown Instruction :=
  let (instr, funct3) := readFieldsB encoded instr
  match funct3 with
  | 0b000 => setType instr .BEQ
  | 0b001 => setType instr .BNE
  | 0b100 => setType instr .BLT
  | 0b101 => setType instr .BGE
  | 0b110 => setType instr .BLTU
  | 0b111 => setType instr .BGEU
  | _ => throwUnknown encoded "BRANCH"

def decodeLoad (encoded : BitVec 32) (instr : Instruction) : Except Thrown Instruction :=
  let (instr, funct3) := readFieldsI encoded instr
  match funct3 with
  | 0b000 => setType instr .LB
  | 0b001 => setType instr .LH
  | 0b010 => setType instr .LW
  | 0b100 => setType instr .LBU
  | 0b101 => setType instr .LHU
  | 0b110 => setType instr .LWU
  | 0b011 => setType instr .LD
  | _ => throwUnknown encoded "LOAD"

def decodeStore (encoded : BitVec 32) (instr : Instruction) : Except Thrown Instruction :=
  let (instr, funct3) := readFieldsS encoded instr
  match funct3 with
  | 0b000 => setType instr .SB
  | 0b001 => setType instr .SH
  | 0b010 => setType instr .SW
  | 0b011 => setType instr .SD
  | _ => throwUnknown encoded "STORE"

def decodeOpImm (encoded : BitVec 32) (instr : Instruction) : Except Thrown Instruction :=
  let (instr, funct3) := readFieldsI encoded instr
  match funct3 with
  | 0b000 => setType instr .ADDI
  | 0b001 => setType instr .SLLI
  | 0b010 => setType instr .SLTI
  | 0b011 => setType instr .SLTIU
  | 0b100 => setType instr .XORI
  | 0b101 =>
    if hasBit instr.immediate 10 then
      setType { instr with immediate := clearBit instr.immediate 10 } .SRAI
    else setType instr .SRLI
  | 0b110 => setType instr .ORI
  | 0b111 => setType instr .ANDI
  | _ => .ok instr

def decodeOpImm32 (encoded : BitVec 32) (instr : Instruction) : Except Thrown Instruction :=
  let (instr, funct3) := readFieldsI encoded instr
  match funct3 with
  | 0b000 => setType instr .ADDIW
  | 0b001 => setType instr .SLLIW
  | 0b101 =>
    if hasBit instr.immediate 10 then
      setType { instr with immediate := clearBit instr.immediate 10 } .SRAIW
    else setType instr .SRLIW
  | _ => throwUnknown encoded "OP-IMM32"

def decodeOp (encoded : BitVec 32) (instr : Instruction) : Except Thrown Instruction :=
  let (instr, funct3, funct7) := readFieldsR encoded instr
  match funct7 with
  | 0b0000000 =>
    match funct3 with
    | 0b000 => setType instr .ADD
    | 0b001 => setType instr .SLL
    | 0b010 => setType instr .SLT
    | 0b011 => setType instr .SLTU
    | 0b100 => setType instr .XOR
    | 0b101 => setType instr .SRL
    | 0b110 => setType instr .OR
    | 0b111 => setType instr .AND
    | _ => .ok instr
  | 0b0100000 =>
    match funct3 with
    | 0b000 => setType instr .SUB
    | 0b101 => setType instr .SRA
    | _ => throwUnknown encoded "OP"
  | 0b0000001 =>
    match funct3 with
    | 0b000 => setType instr .MUL
    | 0b001 => setType instr .MULH
    | 0b010 => setType instr .MULHSU
    | 0b011 => setType instr .MULHU
    | 0b100 => setType instr .DIV
    | 0b101 => setType instr .DIVU
    | 0b110 => setType instr .REM
    | 0b111 => setType instr .REMU
    | _ => .ok instr
  | _ => throwUnknown encoded "OP"

def decodeOp32 (encoded : BitVec 32) (instr : Instruction) : Except Thrown Instruction :=
  let (instr, funct3, funct7) := readFieldsR encoded instr
  match funct7 with
  | 0b0000000 =>
    match funct3 with
    | 0b000 => setType instr .ADDW
    | 0b001 => setType instr .SLLW
    | 0b101 => setType instr .SRLW
    | _ => throwUnknown encoded "OP-32"
  | 0b0100000 =>
    match funct3 with
    | 0b000 => setType instr .SUBW
    | 0b101 => setType instr .SRAW
    | _ => throwUnknown encoded "OP-32"
  | 0b0000001 =>
    match funct3 with
    | 0b000 => setType instr .MULW
    | 0b100 => setType instr .DIVW
    | 0b101 => setType instr .DIVUW
    | 0b110 => setType instr .REMW
    | 0b111 => setType instr .REMUW
    | _ => throwUnknown encoded "OP-32"
  | _ => throwUnknown encoded "OP-32"

def decodeMiscMem (encoded : BitVec 32) (instr : Instruction) : Except Thrown Instruction :=
  let (instr, funct3) := readFieldsI encoded instr
  match funct3 with
  | 0b000 =>
    let instr := { instr with immediate := instr.immediate &&& 0b111111111111 }
    match instr.immediate with
    | 0b100000110011 => setType instr .FENCETSO
    | 0b000000010000 => setType instr .PAUSE
    | _ => setType instr .FENCE
  | 0b001 => setType instr .FENCEI
  | _ => throwUnknown encoded "MISC-MEM"

def decodeSystem (encoded : BitVec 32) (instr : Instruction) : Except Thrown Instruction :=
  let (instr, funct3) := readFieldsI encoded instr
  let immediate := instr.immediate
  let instr := { instr with immediate := 0 }
  match funct3 with
  | 0b000 =>
    match immediate with
    | 0b0 => setType instr .ECALL
    | 0b1 => setType instr .EBREAK
    | _ => throwUnknown encoded "SYSTEM"
  | 0b001 => setType instr .CSRRW
  | 0b010 => setType instr .CSRRS
  | 0b011 => setType instr .CSRRC
  | 0b101 => setType instr .CSRRWI
  | 0b110 => setType instr .CSRRSI
  | 0b111 => setType instr .CSRRCI
  | _ => throwUnknown encoded "SYSTEM"

def decodeAMO (encoded : BitVec 32) (instr : Instruction) : Except Thrown Instruction :=
  let (instr, funct3, funct7) := readFieldsR encoded instr
  let funct5 := funct7 >>> 2
  let instr := { instr with immediate := (funct7 &&& 0b11).setWidth 32 }
  match funct3 with
  | 0b010 =>
    match funct5 with
    | 0b00000 => setType instr .AMOADDW
    | 0b00001 => setType instr .AMOSWAPW
    | 0b00010 => setType instr .LRW
    | 0b00011 => setType instr .SCW
    | 0b00100 => setType instr .AMOXORW
    | 0b01000 => setType instr .AMOORW
    | 0b01100 => setType instr .AMOANDW
    | 0b10000 => setType instr .AMOMINW
    | 0b10100 => setType instr .AMOMAXW
    | 0b11000 => setType instr .AMOMINUW
    | 0b11100 => setType instr .AMOMAXUW
    | _ => throwUnknown encoded "AMO"
  | 0b011 =>
    match funct5 with
    | 0b00000 => setType instr .AMOADDD
    | 0b00001 => setType instr .AMOSWAPD
    | 0b00010 => setType instr .LRD
    | 0b00011 => setType instr .SCD
    | 0b00100 => setType instr .AMOXORD
    | 0b01000 => setType instr .AMOORD
    | 0b01100 => setType instr .AMOANDD
    | 0b10000 => setType instr .AMOMIND
    | 0b10100 => setType instr .AMOMAXD
    | 0b11000 => setType instr .AMOMINUD
    | 0b11100 => setType instr .AMOMAXUD
    | _ => throwUnknown encoded "AMO"
  | _ => throwUnknown encoded "AMO"

def decodeLoadFP (encoded : BitVec 32) (instr : Instruction) : Except Thrown Instruction :=
  let (instr, funct3) := readFieldsI encoded instr
  match funct3 with
  | 0b010 => setType instr .FLW
  | 0b011 => setType instr .FLD
  | _ => throwUnknown encoded "LOAD-FP"

def decodeStoreFP (encoded : BitVec 32) (instr : Instruction) : Except Thrown Instruction :=
  let (instr, funct3) := readFieldsS encoded instr
  match funct3 with
  | 0b010 => setType instr .FSW
  | 0b011 => setType instr .FSD
  | _ => throwUnknown encoded "STORE-FP"

def decodeFPFusedMultiplyAdd (encoded : BitVec 32) (opcode : Opcode) (instr : Instruction) :
    Except Thrown Instruction :=
  let (instr, funct3, funct7) := readFieldsR encoded instr
  let instr := (instr.setRoundingMode funct3).setSourceRegister3 (funct7 >>> 2)
  let funct2 := funct7 &&& 0b11
  match funct2 with
  | 0b00 =>
    match opcode with
    | .MAdd => setType instr .FMADDS
    | .MSub => setType instr .FMSUBS
    | .NMAdd => setType instr .FNMADDS
    | .NMSub => setType instr .FNMSUBS
    | _ => throwUnknown encoded "FP-FUSED-MULTIPLY-ADD"
  | 0b01 =>
    match opcode with
    | .MAdd => setType instr .FMADDD
    | .MSub => setType instr .FMSUBD
    | .NMAdd => setType instr .FNMADDD
    | .NMSub => setType instr .FNMSUBD
    | _ => throwUnknown encoded "FP-FUSED-MULTIPLY-ADD"
  | _ => throwUnknown encoded "FP-FUSED-MULTIPLY-ADD"

def decodeOpFP (encoded : BitVec 32) (instr : Instruction) : Except Thrown Instruction :=
  let (instr, funct3, funct7) := readFieldsR encoded instr
  let instr := instr.setRoundingMode funct3
  let isSingle := !hasBit funct7 0
  let funct7 := clearBit funct7 0
  match funct7 with
  | 0b0000000 => setType instr (if isSingle then .FADDS else .FADDD)
  | 0b0000100 => setType instr (if isSingle then .FSUBS else .FSUBD)
  | 0b0001000 => setType instr (if isSingle then .FMULS else .FMULD)
  | 0b0001100 =>
    if instr.sourceRegister2 = 0 then setType instr (if isSingle then .FSQRTS else .FSQRTD)
    else setType instr (if isSingle then .FDIVS else .FDIVD)
  | 0b0010000 =>
    match funct3 with
    | 0b000 => setType instr (if isSingle then .FSGNJS else .FSGNJD)
    | 0b001 => setType instr (if isSingle then .FSGNJNS else .FSGNJND)
    | 0b010 => setType instr (if isSingle then .FSGNJXS else .FSGNJXD)
    | _ => throwUnknown encoded "OP-FP"
  | 0b0010100 =>
    match funct3 with
    | 0b000 => setType instr (if isSingle then .FMINS else .FMIND)
    | 0b001 => setType instr (if isSingle then .FMAXS else .FMAXD)
    | _ => throwUnknown encoded "OP-FP"
  | 0b0100000 =>
    match instr.sourceRegister2 with
    | 0b00001 => setType instr (if isSingle then .FCVTSD else .FCVTDS)
    | _ => throwUnknown encoded "OP-FP"
  | 0b1100000 =>
    match instr.sourceRegister2 with
    | 0b00000 => setType instr (if isSingle then .FCVTWS else .FCVTWD)
    | 0b00001 => setType instr (if isSingle then .FCVTWUS else .FCVTWUD)
    | 0b00010 => setType instr (if isSingle then .FCVTLS else .FCVTLD)
    | 0b00011 => setType instr (if isSingle then .FCVTLUS else .FCVTLUD)
    | _ => throwUnknown encoded "OP-FP"
  | 0b1110000 =>
    match funct3 with
    | 0b000 => setType instr (if isSingle then .FMVXW else .FMVXD)
    | 0b001 => setType instr (if isSingle then .FCLASSS else .FCLASSD)
    | _ => throwNewUnknown encoded "OP-FP"
  | 0b1010000 =>
    match funct3 with
    | 0b010 => setType instr (if isSingle then .FEQS else .FEQD)
    | 0b001 => setType instr (if isSingle then .FLTS else .FLTD)
    | 0b000 => setType instr (if isSingle then .FLES else .FLED)
    | _ => throwUnknown encoded "OP-FP"
  | 0b1101000 =>
    match instr.sourceRegister2 with
    | 0b00000 => setType instr (if isSingle then .FCVTSW else .FCVTDW)
    | 0b00001 => setType instr (if isSingle then .FCVTSWU else .FCVTDWU)
    | 0b00010 => setType instr (if isSingle then .FCVTSL else .FCVTDL)
    | 0b00011 => setType instr (if isSingle then .FCVTSLU else .FCVTDLU)
    | _ => throwUnknown encoded "OP-FP"
  | 0b1111000 =>
    match funct3 with
    | 0b000 => setType instr (if isSingle then .FMVWX else .FMVDX)
    | _ => throwUnknown encoded "OP-FP"
  | _ => throwUnknown encoded "OP-FP"

def decodeInstruction (instr : Instruction) (encoded : BitVec 32) : Except Thrown Instruction :=
  let opcode := getOpcode encoded
  match opcode with
  | .LUI => setType (readFieldsU encoded instr) .LUI
  | .AUIPC => setType (readFieldsU encoded instr) .AUIPC
  | .JAL => setType (readFieldsJ encoded instr) .JAL
  | .JALR => setType (readFieldsI encoded instr).1 .JALR -- `funct3` is read and not checked
  | .Branch => decodeBranch encoded instr
  | .Load => decodeLoad encoded instr
  | .Store => decodeStore encoded instr
  | .OpImm => decodeOpImm encoded instr
  | .OpImm32 => decodeOpImm32 encoded instr
  | .Op => decodeOp encoded instr
  | .Op32 => decodeOp32 encoded instr
  | .MiscMem => decodeMiscMem encoded instr
  | .System => decodeSystem encoded instr
  | .AMO => decodeAMO encoded instr
  | .LoadFP => decodeLoadFP encoded instr
  | .StoreFP => decodeStoreFP encoded instr
  | .MAdd | .MSub | .NMAdd | .NMSub => decodeFPFusedMultiplyAdd encoded opcode instr
  | .OpFP => decodeOpFP encoded instr
  | _ => throwUnknown encoded "unknown"

theorem decodeInstruction_unnamed {encoded : BitVec 32} {bits : BitVec 8}
    (h : getOpcode encoded = .unnamed bits) (instr : Instruction) :
    decodeInstruction instr encoded = throwUnknown encoded "unknown" := by
  rw [decodeInstruction, h]

/-- The loop of `decodeInstructions`; an iteration advances `programOffset` by 4 bytes. -/
def decodeLoop (native : Endian) : List Byte → Except Thrown (List Instruction)
  | b0 :: b1 :: b2 :: b3 :: rest =>
    if isEncodingCompressed b0 then
      .error (.value (.runtimeError "Compressed instructions are not supported"))
    else do
      let instruction ← decodeInstruction {} (valueU32 native b0 b1 b2 b3)
      let instructions ← decodeLoop native rest
      return instruction :: instructions
  | _ => .ok []

def decodeInstructions (native : Endian) (program : List Byte) :
    Except Thrown (List Instruction) :=
  if program.length % 4 ≠ 0 then
    .error (.value (.runtimeError
      ("Program size not divisible by 4: " ++ toString program.length)))
  else decodeLoop native program

end RiscvEmulator.Source
