import RiscvEmulator.Source.DecoderFields
import RiscvEmulator.Spec.RoundTrip

/-!
# The decoder accepts every integer row

One lemma per sub-decoder: a word whose funct fields are those of a type of its
opcode decodes to that type. `decode_row` assembles them: every word that carries
the fixed bits of an integer type decodes to the instruction the listings read from
it. The only words left out are the two FENCE words that are FENCE.TSO and PAUSE.
-/
namespace RiscvEmulator.Guarantees
open Source Spec Library InstructionFormat

variable (w : BitVec 32) (instr : Instruction) (t : InstructionType)

/-- Reading a field in a wider type loses nothing. -/
theorem eq_of_setWidth {m n : Nat} (hmn : n ≤ m) {x : BitVec n} {c : BitVec m}
    (h : x.setWidth m = c) : x = c.setWidth n := by
  rw [← h, BitVec.setWidth_setWidth_of_le _ hmn, BitVec.setWidth_eq]

section Dispatch

/-- The opcodes `decodeInstruction` sends to a sub-decoder. -/
def knownOpcodes : List (BitVec 7) :=
  [opLui, opAuipc, opJal, opJalr, opBranch, opLoad, opStore, opImm, opImm32, opOp, opOp32,
    opMiscMem, opSystem, opAmo, opLoadFP, opStoreFP, opMadd, opMsub, opNmadd, opNmsub, opFP]

theorem opcode_known_or (op : BitVec 7) :
    op ∈ knownOpcodes ∨ Opcode.cast (op.setWidth 8) = .OpV ∨ Opcode.cast (op.setWidth 8) = .OpVE ∨
      Opcode.cast (op.setWidth 8) = .unnamed (op.setWidth 8) := by
  unfold Opcode.cast
  split
  case h_18 | h_23 | h_24 => simp
  all_goals
    next h =>
    refine .inl ?_
    rw [eq_of_setWidth (by decide) h]
    decide

theorem decodeInstruction_unknown (hop : opcode w ∉ knownOpcodes) :
    decodeInstruction instr w = throwUnknown w "unknown" := by
  rcases opcode_known_or (opcode w) with h | h | h | h
  · exact absurd h hop
  · rw [decodeInstruction, getOpcode_eq, h]
  · rw [decodeInstruction, getOpcode_eq, h]
  · exact decodeInstruction_unnamed ((getOpcode_eq w).trans h) instr

/-- The sub-decoder a word is sent to, and what it is sent there with. -/
inductive Dispatched : Except Thrown Instruction → Prop where
  | lui (h : opcode w = opLui) : Dispatched (setType (readFieldsU w instr) .LUI)
  | auipc (h : opcode w = opAuipc) : Dispatched (setType (readFieldsU w instr) .AUIPC)
  | jal (h : opcode w = opJal) : Dispatched (setType (readFieldsJ w instr) .JAL)
  | jalr (h : opcode w = opJalr) : Dispatched (setType (readFieldsI w instr).1 .JALR)
  | branch (h : opcode w = opBranch) : Dispatched (decodeBranch w instr)
  | load (h : opcode w = opLoad) : Dispatched (decodeLoad w instr)
  | store (h : opcode w = opStore) : Dispatched (decodeStore w instr)
  | opImm (h : opcode w = opImm) : Dispatched (decodeOpImm w instr)
  | opImm32 (h : opcode w = opImm32) : Dispatched (decodeOpImm32 w instr)
  | op (h : opcode w = opOp) : Dispatched (decodeOp w instr)
  | op32 (h : opcode w = opOp32) : Dispatched (decodeOp32 w instr)
  | miscMem (h : opcode w = opMiscMem) : Dispatched (decodeMiscMem w instr)
  | system (h : opcode w = opSystem) : Dispatched (decodeSystem w instr)
  | amo (h : opcode w = opAmo) : Dispatched (decodeAMO w instr)
  | loadFP (h : opcode w = opLoadFP) : Dispatched (decodeLoadFP w instr)
  | storeFP (h : opcode w = opStoreFP) : Dispatched (decodeStoreFP w instr)
  | madd (h : opcode w = opMadd) : Dispatched (decodeFPFusedMultiplyAdd w .MAdd instr)
  | msub (h : opcode w = opMsub) : Dispatched (decodeFPFusedMultiplyAdd w .MSub instr)
  | nmadd (h : opcode w = opNmadd) : Dispatched (decodeFPFusedMultiplyAdd w .NMAdd instr)
  | nmsub (h : opcode w = opNmsub) : Dispatched (decodeFPFusedMultiplyAdd w .NMSub instr)
  | opFP (h : opcode w = opFP) : Dispatched (decodeOpFP w instr)
  | unknown (h : opcode w ∉ knownOpcodes) : Dispatched (throwUnknown w "unknown")

variable {w instr} in
/-- The opcode decides about the sub-decoder. -/
theorem Dispatched.eq {result : Except Thrown Instruction} (h : Dispatched w instr result) :
    decodeInstruction instr w = result := by
  cases h with
  | unknown hop => exact decodeInstruction_unknown w instr hop
  | lui hop | auipc hop | jal hop | jalr hop | branch hop | load hop | store hop | opImm hop
  | opImm32 hop | op hop | op32 hop | miscMem hop | system hop | amo hop | loadFP hop
  | storeFP hop | madd hop | msub hop | nmadd hop | nmsub hop | opFP hop =>
    rw [decodeInstruction, getOpcode_eq, hop]
    rfl

variable {w instr} in
theorem Dispatched.self {result : Except Thrown Instruction} (h : Dispatched w instr result) :
    Dispatched w instr (decodeInstruction instr w) := by
  rwa [h.eq]

/-- The case analysis of `decodeInstruction`. -/
theorem dispatched : Dispatched w instr (decodeInstruction instr w) := by
  by_cases hknown : opcode w ∈ knownOpcodes
  · simp only [knownOpcodes, List.mem_cons, List.not_mem_nil, or_false] at hknown
    rcases hknown with hop | hop | hop | hop | hop | hop | hop | hop | hop | hop | hop | hop |
      hop | hop | hop | hop | hop | hop | hop | hop | hop
    · exact Dispatched.self (.lui hop)
    · exact Dispatched.self (.auipc hop)
    · exact Dispatched.self (.jal hop)
    · exact Dispatched.self (.jalr hop)
    · exact Dispatched.self (.branch hop)
    · exact Dispatched.self (.load hop)
    · exact Dispatched.self (.store hop)
    · exact Dispatched.self (.opImm hop)
    · exact Dispatched.self (.opImm32 hop)
    · exact Dispatched.self (.op hop)
    · exact Dispatched.self (.op32 hop)
    · exact Dispatched.self (.miscMem hop)
    · exact Dispatched.self (.system hop)
    · exact Dispatched.self (.amo hop)
    · exact Dispatched.self (.loadFP hop)
    · exact Dispatched.self (.storeFP hop)
    · exact Dispatched.self (.madd hop)
    · exact Dispatched.self (.msub hop)
    · exact Dispatched.self (.nmadd hop)
    · exact Dispatched.self (.nmsub hop)
    · exact Dispatched.self (.opFP hop)
  · exact Dispatched.self (.unknown hknown)

end Dispatch

theorem decodeBranch_row (h : encodingOf t = .b opBranch (funct3 w)) :
    decodeBranch w instr = .ok { (readFieldsB w instr).1 with type := t } := by
  generalize h3 : funct3 w = f3 at h
  simp only [decodeBranch, readFieldsB, getFunct3_eq, h3]
  cases t <;> cases h <;> rfl

theorem decodeLoad_row (h : encodingOf t = .i opLoad (funct3 w)) :
    decodeLoad w instr = .ok { (readFieldsI w instr).1 with type := t } := by
  generalize h3 : funct3 w = f3 at h
  simp only [decodeLoad, readFieldsI, getFunct3_eq, h3]
  cases t <;> cases h <;> rfl

theorem decodeStore_row (h : encodingOf t = .s opStore (funct3 w)) :
    decodeStore w instr = .ok { (readFieldsS w instr).1 with type := t } := by
  generalize h3 : funct3 w = f3 at h
  simp only [decodeStore, readFieldsS, getFunct3_eq, h3]
  cases t <;> cases h <;> rfl

theorem decodeOpImm_row (h : encodingOf t = .i opImm (funct3 w)) :
    decodeOpImm w instr = .ok { (readFieldsI w instr).1 with type := t } := by
  generalize h3 : funct3 w = f3 at h
  simp only [decodeOpImm, readFieldsI, getFunct3_eq, h3]
  cases t <;> cases h <;> rfl

theorem decodeOpImm32_row (h : encodingOf t = .i opImm32 (funct3 w)) :
    decodeOpImm32 w instr = .ok { (readFieldsI w instr).1 with type := t } := by
  generalize h3 : funct3 w = f3 at h
  simp only [decodeOpImm32, readFieldsI, getFunct3_eq, h3]
  cases t <;> cases h
  rfl

theorem decodeOp_row (h : encodingOf t = .r opOp (funct3 w) (funct7 w)) :
    decodeOp w instr = .ok { (readFieldsR w instr).1 with type := t } := by
  generalize h3 : funct3 w = f3 at h
  generalize h7 : funct7 w = f7 at h
  simp only [decodeOp, readFieldsR, getFunct3_eq, getFunct7_eq, h3, h7]
  cases t <;> cases h <;> rfl

theorem decodeOp32_row (h : encodingOf t = .r opOp32 (funct3 w) (funct7 w)) :
    decodeOp32 w instr = .ok { (readFieldsR w instr).1 with type := t } := by
  generalize h3 : funct3 w = f3 at h
  generalize h7 : funct7 w = f7 at h
  simp only [decodeOp32, readFieldsR, getFunct3_eq, getFunct7_eq, h3, h7]
  cases t <;> cases h <;> rfl

/-- The shift flag hidden in the immediate: bit 10 set on SRAI, and stripped. -/
theorem shift_flag (shamt : BitVec 6) :
    hasBit ((0b000000#6 ++ shamt).signExtend 32) 10 = false ∧
    (0b000000#6 ++ shamt).signExtend 32 = shamt.setWidth 32 ∧
    hasBit ((0b010000#6 ++ shamt).signExtend 32) 10 = true ∧
    clearBit ((0b010000#6 ++ shamt).signExtend 32) 10 = shamt.setWidth 32 := by
  revert shamt
  decide

theorem decodeOpImm_shift (h : encodingOf t = .shift opImm (funct3 w) ((immI w).extractLsb' 6 6)) :
    decodeOpImm w instr = .ok { (readFieldsI w instr).1 with
      immediate := ((immI w).extractLsb' 0 6).setWidth 32, type := t } := by
  have himm : getImmediateI w =
      ((immI w).extractLsb' 6 6 ++ (immI w).extractLsb' 0 6).signExtend 32 := by
    rw [getImmediateI_eq, shamt_joined]
  generalize h3 : funct3 w = f3 at h
  generalize (immI w).extractLsb' 6 6 = f6 at h himm
  generalize (immI w).extractLsb' 0 6 = shamt at himm ⊢
  obtain ⟨logical, plain, arith, stripped⟩ := shift_flag shamt
  simp only [decodeOpImm, readFieldsI, getFunct3_eq, h3, himm]
  cases t <;> cases h
  case SLLI =>
    rw [← plain]
    rfl
  case SRLI =>
    refine (if_neg (Bool.eq_false_iff.mp logical)).trans ?_
    rw [← plain]
    rfl
  case SRAI =>
    refine (if_pos arith).trans ?_
    rw [← stripped]
    rfl

/-- As `shift_flag` for the W forms, whose seven upper bits are fixed. -/
theorem shift_flag_word (shamt : BitVec 5) :
    hasBit ((0b0000000#7 ++ shamt).signExtend 32) 10 = false ∧
    (0b0000000#7 ++ shamt).signExtend 32 = shamt.setWidth 32 ∧
    hasBit ((0b0100000#7 ++ shamt).signExtend 32) 10 = true ∧
    clearBit ((0b0100000#7 ++ shamt).signExtend 32) 10 = shamt.setWidth 32 := by
  revert shamt
  decide

theorem decodeOpImm32_shift (h : encodingOf t = .shiftW opImm32 (funct3 w) (funct7 w)) :
    decodeOpImm32 w instr = .ok { (readFieldsI w instr).1 with
      immediate := ((immI w).extractLsb' 0 5).setWidth 32, type := t } := by
  have hlow : (immI w).extractLsb' 0 5 = rs2 w := BitVec.extractLsb'_append_eq_right
  have himm : getImmediateI w = (funct7 w ++ rs2 w).signExtend 32 := getImmediateI_eq w
  generalize h3 : funct3 w = f3 at h
  generalize funct7 w = f7 at h himm
  generalize rs2 w = shamt at himm hlow
  obtain ⟨logical, plain, arith, stripped⟩ := shift_flag_word shamt
  simp only [decodeOpImm32, readFieldsI, getFunct3_eq, h3, himm, hlow]
  cases t <;> cases h
  case SLLIW =>
    rw [← plain]
    rfl
  case SRLIW =>
    refine (if_neg (Bool.eq_false_iff.mp logical)).trans ?_
    rw [← plain]
    rfl
  case SRAIW =>
    refine (if_pos arith).trans ?_
    rw [← stripped]
    rfl

/-- Masking the sign-extended fence field leaves the field itself. -/
theorem fence_field (imm : BitVec 12) :
    imm.signExtend 32 &&& 0b111111111111 = imm.setWidth 32 := by
  apply BitVec.eq_of_getLsbD_eq
  intro i hi
  simp only [BitVec.getLsbD_and, BitVec.getLsbD_signExtend, BitVec.getLsbD_setWidth]
  interval_cases i <;> simp

theorem decodeMiscMem_fence (h3 : funct3 w = 0b000) (htso : immI w ≠ 0b100000110011)
    (hpause : immI w ≠ 0b000000010000) :
    decodeMiscMem w instr = .ok { (readFieldsI w instr).1 with
      immediate := (immI w).setWidth 32, type := .FENCE } := by
  have hzero : (0b000 : BitVec 3).setWidth 8 = 0b000#8 := rfl
  simp only [decodeMiscMem, readFieldsI, getFunct3_eq, getImmediateI_eq, fence_field, h3, hzero]
  split
  next h => exact absurd (eq_of_setWidth (by decide) h) htso
  next h => exact absurd (eq_of_setWidth (by decide) h) hpause
  next => rfl

theorem decodeMiscMem_fixed {imm : BitVec 12} (h : encodingOf t = .fixed opMiscMem (funct3 w) imm)
    (himm : immI w = imm) :
    decodeMiscMem w instr = .ok { (readFieldsI w instr).1 with
      immediate := imm.setWidth 32, type := t } := by
  generalize h3 : funct3 w = f3 at h
  simp only [decodeMiscMem, readFieldsI, getFunct3_eq, getImmediateI_eq, fence_field, h3, himm]
  cases t <;> cases h <;> rfl

theorem decodeMiscMem_row (h : encodingOf t = .i opMiscMem (funct3 w)) :
    decodeMiscMem w instr = .ok { (readFieldsI w instr).1 with type := t } := by
  generalize h3 : funct3 w = f3 at h
  simp only [decodeMiscMem, readFieldsI, getFunct3_eq, h3]
  cases t <;> cases h
  rfl

theorem decodeSystem_fixed {imm : BitVec 12} (h : encodingOf t = .fixed opSystem (funct3 w) imm)
    (himm : immI w = imm) :
    decodeSystem w instr = .ok { (readFieldsI w instr).1 with immediate := 0, type := t } := by
  generalize h3 : funct3 w = f3 at h
  simp only [decodeSystem, readFieldsI, getFunct3_eq, getImmediateI_eq, h3, himm]
  cases t <;> cases h <;> rfl

/-- funct7 splits into funct5 and the aq, rl bits as the decoder's shift and mask do. -/
theorem amo_fields (f : BitVec 7) :
    f.setWidth 8 >>> 2 = (f.extractLsb' 2 5).setWidth 8 ∧
    (f.setWidth 8 &&& 0b11).setWidth 32 = (f.extractLsb' 0 2).setWidth 32 := by
  revert f
  decide

theorem decodeAMO_row (h : encodingOf t = .amo opAmo (funct3 w) ((funct7 w).extractLsb' 2 5) ∨
      encodingOf t = .lr opAmo (funct3 w) ((funct7 w).extractLsb' 2 5)) :
    decodeAMO w instr = .ok { (readFieldsR w instr).1 with
      immediate := ((funct7 w).extractLsb' 0 2).setWidth 32, type := t } := by
  obtain ⟨hshift, hmask⟩ := amo_fields (funct7 w)
  generalize h3 : funct3 w = f3 at h
  generalize h5 : (funct7 w).extractLsb' 2 5 = f5 at h hshift
  simp only [decodeAMO, readFieldsR, getFunct3_eq, getFunct7_eq, h3, hshift, hmask]
  rcases h with h | h
  · cases t <;> cases h <;> rfl
  · cases t <;> cases h <;> rfl

section IntegerRows
variable {t : InstructionType} {op f7 : BitVec 7} {f3 : BitVec 3} {f5 : BitVec 5} {f6 : BitVec 6}
  {imm : BitVec 12}

/-! Which opcodes the integer rows of each layout have. -/

theorem integer_r_opcode (hint : IsInteger t) (h : encodingOf t = .r op f3 f7) :
    op = opOp ∨ op = opOp32 := by
  cases t <;> cases h <;> first | exact .inl rfl | exact .inr rfl | exact absurd rfl hint.2

theorem integer_i_opcode (hint : IsInteger t) (h : encodingOf t = .i op f3) :
    (op = opJalr ∧ t = .JALR) ∨ op = opLoad ∨ op = opImm ∨ op = opImm32 ∨ op = opMiscMem := by
  cases t <;> cases h <;> first | decide | exact absurd rfl hint.1 | exact absurd rfl hint.2

theorem integer_s_opcode (hint : IsInteger t) (h : encodingOf t = .s op f3) : op = opStore := by
  cases t <;> cases h <;> first | rfl | exact absurd rfl hint.2

theorem b_opcode (h : encodingOf t = .b op f3) : op = opBranch := by
  cases t <;> cases h <;> rfl

theorem u_opcode (h : encodingOf t = .u op) :
    op = opLui ∧ t = .LUI ∨ op = opAuipc ∧ t = .AUIPC := by
  cases t <;> cases h <;> decide

theorem j_opcode (h : encodingOf t = .j op) : op = opJal ∧ t = .JAL := by
  cases t <;> cases h
  decide

theorem shift_opcode (h : encodingOf t = .shift op f3 f6) : op = opImm := by
  cases t <;> cases h <;> rfl

theorem shiftW_opcode (h : encodingOf t = .shiftW op f3 f7) : op = opImm32 := by
  cases t <;> cases h <;> rfl

theorem fence_opcode (h : encodingOf t = .fence op f3) :
    op = opMiscMem ∧ f3 = 0b000 ∧ t = .FENCE := by
  cases t <;> cases h
  decide

theorem fixed_opcode (h : encodingOf t = .fixed op f3 imm) : op = opMiscMem ∨ op = opSystem := by
  cases t <;> cases h <;> decide

theorem amo_opcode (h : encodingOf t = .amo op f3 f5 ∨ encodingOf t = .lr op f3 f5) :
    op = opAmo := by
  rcases h with h | h <;> cases t <;> cases h <;> rfl

end IntegerRows

section IntegerDecode
variable {w t} {op f7 : BitVec 7} {f3 : BitVec 3} {f5 : BitVec 5}

theorem decode_r (hint : IsInteger t) (henc : encodingOf t = .r op f3 f7)
    (hmatch : (Encoding.r op f3 f7).Matches w) :
    decodeInstruction {} w = .ok ((Encoding.r op f3 f7).disassemble t w) := by
  obtain ⟨hop, rfl, rfl⟩ := hmatch
  have fields : (readFieldsR w {}).1 = { Encoding.disassemble (.r op (funct3 w) (funct7 w)) t w
      with type := .LUI } := by
    simp only [readFieldsR, getDestinationRegister_eq, getSourceRegister1_eq,
      getSourceRegister2_eq, Encoding.disassemble]
  rcases integer_r_opcode hint henc with rfl | rfl
  · rw [(Dispatched.op hop).eq, decodeOp_row w {} t henc, fields]
    rfl
  · rw [(Dispatched.op32 hop).eq, decodeOp32_row w {} t henc, fields]
    rfl

theorem decode_i (hint : IsInteger t) (henc : encodingOf t = .i op f3)
    (hmatch : (Encoding.i op f3).Matches w) :
    decodeInstruction {} w = .ok ((Encoding.i op f3).disassemble t w) := by
  obtain ⟨hop, rfl⟩ := hmatch
  have fields : (readFieldsI w {}).1 = { Encoding.disassemble (.i op (funct3 w)) t w
      with type := .LUI } := by
    simp only [readFieldsI, getDestinationRegister_eq, getSourceRegister1_eq, getImmediateI_eq,
      Encoding.disassemble]
  rcases integer_i_opcode hint henc with ⟨rfl, rfl⟩ | rfl | rfl | rfl | rfl
  · rw [(Dispatched.jalr hop).eq, fields]
    rfl
  · rw [(Dispatched.load hop).eq, decodeLoad_row w {} t henc, fields]
    rfl
  · rw [(Dispatched.opImm hop).eq, decodeOpImm_row w {} t henc, fields]
    rfl
  · rw [(Dispatched.opImm32 hop).eq, decodeOpImm32_row w {} t henc, fields]
    rfl
  · rw [(Dispatched.miscMem hop).eq, decodeMiscMem_row w {} t henc, fields]
    rfl

theorem decode_u (henc : encodingOf t = .u op) (hop : opcode w = op) :
    decodeInstruction {} w = .ok ((Encoding.u op).disassemble t w) := by
  rcases u_opcode henc with ⟨rfl, rfl⟩ | ⟨rfl, rfl⟩
  · rw [(Dispatched.lui hop).eq, readFieldsU, getDestinationRegister_eq, getImmediateU_eq]
    rfl
  · rw [(Dispatched.auipc hop).eq, readFieldsU, getDestinationRegister_eq, getImmediateU_eq]
    rfl

theorem decode_fixed {imm : BitVec 12} (henc : encodingOf t = .fixed op f3 imm)
    (hmatch : (Encoding.fixed op f3 imm).Matches w) :
    decodeInstruction {} w = .ok ((Encoding.fixed op f3 imm).disassemble t w) := by
  obtain ⟨hop, rfl, himm, h1, hd⟩ := hmatch
  rcases fixed_opcode henc with rfl | rfl
  · rw [(Dispatched.miscMem hop).eq, decodeMiscMem_fixed w {} t henc himm, readFieldsI,
      getDestinationRegister_eq, getSourceRegister1_eq, h1, hd]
    rfl
  · rw [(Dispatched.system hop).eq, decodeSystem_fixed w {} t henc himm, readFieldsI,
      getDestinationRegister_eq, getSourceRegister1_eq, h1, hd]
    rfl

theorem decode_amo (henc : encodingOf t = .amo op f3 f5)
    (hmatch : (Encoding.amo op f3 f5).Matches w) :
    decodeInstruction {} w = .ok ((Encoding.amo op f3 f5).disassemble t w) := by
  obtain ⟨hop, rfl, rfl⟩ := hmatch
  obtain rfl := amo_opcode (.inl henc)
  rw [(Dispatched.amo hop).eq, decodeAMO_row w {} t (.inl henc)]
  simp only [readFieldsR, getDestinationRegister_eq, getSourceRegister1_eq,
    getSourceRegister2_eq, Encoding.disassemble]

theorem decode_lr (henc : encodingOf t = .lr op f3 f5)
    (hmatch : (Encoding.lr op f3 f5).Matches w) :
    decodeInstruction {} w = .ok ((Encoding.lr op f3 f5).disassemble t w) := by
  obtain ⟨hop, rfl, rfl, h2⟩ := hmatch
  obtain rfl := amo_opcode (.inr henc)
  rw [(Dispatched.amo hop).eq, decodeAMO_row w {} t (.inr henc)]
  simp only [readFieldsR, getDestinationRegister_eq, getSourceRegister1_eq,
    getSourceRegister2_eq, h2, Encoding.disassemble]
  rfl

end IntegerDecode

/-- Every word that carries the fixed bits of an integer type decodes to the instruction
the listings read from it, but for the two FENCE words that are hints of their own. -/
theorem decode_row (hint : IsInteger t) (hmatch : (encodingOf t).Matches w)
    (hfence : t = .FENCE → immI w ≠ 0b100000110011 ∧ immI w ≠ 0b000000010000) :
    decodeInstruction {} w = .ok ((encodingOf t).disassemble t w) := by
  have hplain := hint.usesFloatOp
  cases henc : encodingOf t with
  | r op f3 f7 => exact decode_r hint henc (henc ▸ hmatch)
  | i op f3 => exact decode_i hint henc (henc ▸ hmatch)
  | s op f3 =>
    rw [henc] at hmatch
    obtain ⟨hop, rfl⟩ := hmatch
    obtain rfl := integer_s_opcode hint henc
    rw [(Dispatched.store hop).eq, decodeStore_row w {} t henc]
    simp only [readFieldsS, getSourceRegister1_eq, getSourceRegister2_eq, getImmediateS_eq,
      Encoding.disassemble]
  | b op f3 =>
    rw [henc] at hmatch
    obtain ⟨hop, rfl⟩ := hmatch
    obtain rfl := b_opcode henc
    rw [(Dispatched.branch hop).eq, decodeBranch_row w {} t henc]
    simp only [readFieldsB, getSourceRegister1_eq, getSourceRegister2_eq, getImmediateB_eq,
      Encoding.disassemble]
  | u op =>
    rw [henc] at hmatch
    exact decode_u henc hmatch
  | j op =>
    rw [henc] at hmatch
    obtain ⟨rfl, rfl⟩ := j_opcode henc
    rw [(Dispatched.jal hmatch).eq, readFieldsJ, getDestinationRegister_eq, getImmediateJ_eq]
    rfl
  | shift op f3 f6 =>
    rw [henc] at hmatch
    obtain ⟨hop, rfl, rfl⟩ := hmatch
    obtain rfl := shift_opcode henc
    rw [(Dispatched.opImm hop).eq, decodeOpImm_shift w {} t henc]
    simp only [readFieldsI, getDestinationRegister_eq, getSourceRegister1_eq,
      Encoding.disassemble]
  | shiftW op f3 f7 =>
    rw [henc] at hmatch
    obtain ⟨hop, rfl, rfl⟩ := hmatch
    obtain rfl := shiftW_opcode henc
    rw [(Dispatched.opImm32 hop).eq, decodeOpImm32_shift w {} t henc]
    simp only [readFieldsI, getDestinationRegister_eq, getSourceRegister1_eq,
      Encoding.disassemble]
  | fence op f3 =>
    rw [henc] at hmatch
    obtain ⟨hop, h3⟩ := hmatch
    obtain ⟨rfl, rfl, rfl⟩ := fence_opcode henc
    obtain ⟨htso, hpause⟩ := hfence rfl
    rw [(Dispatched.miscMem hop).eq, decodeMiscMem_fence w {} h3 htso hpause]
    simp only [readFieldsI, getDestinationRegister_eq, getSourceRegister1_eq,
      Encoding.disassemble]
  | fixed op f3 imm => exact decode_fixed henc (henc ▸ hmatch)
  | amo op f3 f5 => exact decode_amo henc (henc ▸ hmatch)
  | lr op f3 f5 => exact decode_lr henc (henc ▸ hmatch)
  | r4 | rm | unaryRm | unary =>
    rw [henc] at hplain
    cases hplain

end RiscvEmulator.Guarantees
