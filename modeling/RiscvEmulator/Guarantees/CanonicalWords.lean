import RiscvEmulator.Guarantees.IntegerRoundTrip

/-!
# Which accepted words are canonical encodings

The decoder's inversion lemmas: what an accepted word is, given the type it was decoded
to. Most sub-decoders check every bit their rows fix. `CanonicalWord` lists the checks
the others leave out; the words it excludes are accepted and are not the encoding of
the instruction they decode to, and they are the only ones.
-/
namespace RiscvEmulator.Guarantees
open Source Spec Library InstructionFormat WordBytes

variable {w : BitVec 32} {instr r : Instruction}

/-- No value of a three-bit field reaches the end of a switch over 0..7. -/
theorem funct3_exhausted (f : BitVec 3) (h0 : f.setWidth 8 ≠ 0b000#8)
    (h1 : f.setWidth 8 ≠ 0b001#8) (h2 : f.setWidth 8 ≠ 0b010#8) (h3 : f.setWidth 8 ≠ 0b011#8)
    (h4 : f.setWidth 8 ≠ 0b100#8) (h5 : f.setWidth 8 ≠ 0b101#8) (h6 : f.setWidth 8 ≠ 0b110#8)
    (h7 : f.setWidth 8 ≠ 0b111#8) : False := by
  have hcases : ∀ f : BitVec 3, f.setWidth 8 = 0b000#8 ∨ f.setWidth 8 = 0b001#8 ∨
      f.setWidth 8 = 0b010#8 ∨ f.setWidth 8 = 0b011#8 ∨ f.setWidth 8 = 0b100#8 ∨
      f.setWidth 8 = 0b101#8 ∨ f.setWidth 8 = 0b110#8 ∨ f.setWidth 8 = 0b111#8 := by decide
  rcases hcases f with h | h | h | h | h | h | h | h
  · exact h0 h
  · exact h1 h
  · exact h2 h
  · exact h3 h
  · exact h4 h
  · exact h5 h
  · exact h6 h
  · exact h7 h

theorem type_of_setType {t : InstructionType} (h : setType instr t = .ok r) : r.type = t := by
  rw [← Except.ok.inj h]

theorem decodeBranch_ok (h : decodeBranch w instr = .ok r) :
    encodingOf r.type = .b opBranch (funct3 w) := by
  unfold decodeBranch readFieldsB at h
  simp only [getFunct3_eq] at h
  split at h
  case h_7 => cases h
  all_goals
    next h3 =>
    rw [type_of_setType h, eq_of_setWidth (by decide) h3]
    rfl

theorem decodeLoad_ok (h : decodeLoad w instr = .ok r) :
    encodingOf r.type = .i opLoad (funct3 w) := by
  unfold decodeLoad readFieldsI at h
  simp only [getFunct3_eq] at h
  split at h
  case h_8 => cases h
  all_goals
    next h3 =>
    rw [type_of_setType h, eq_of_setWidth (by decide) h3]
    rfl

theorem decodeStore_ok (h : decodeStore w instr = .ok r) :
    encodingOf r.type = .s opStore (funct3 w) := by
  unfold decodeStore readFieldsS at h
  simp only [getFunct3_eq] at h
  split at h
  case h_5 => cases h
  all_goals
    next h3 =>
    rw [type_of_setType h, eq_of_setWidth (by decide) h3]
    rfl

theorem decodeOp_ok (h : decodeOp w instr = .ok r) :
    encodingOf r.type = .r opOp (funct3 w) (funct7 w) := by
  unfold decodeOp readFieldsR at h
  simp only [getFunct3_eq, getFunct7_eq] at h
  split at h
  next h7 =>
    rw [eq_of_setWidth (by decide) h7]
    split at h
    case h_9 h0 h1 h2 h3 h4 h5 h6 h7 => exact (funct3_exhausted _ h0 h1 h2 h3 h4 h5 h6 h7).elim
    all_goals
      next h3 =>
      rw [type_of_setType h, eq_of_setWidth (by decide) h3]
      rfl
  next h7 =>
    rw [eq_of_setWidth (by decide) h7]
    split at h
    case h_3 => cases h
    all_goals
      next h3 =>
      rw [type_of_setType h, eq_of_setWidth (by decide) h3]
      rfl
  next h7 =>
    rw [eq_of_setWidth (by decide) h7]
    split at h
    case h_9 h0 h1 h2 h3 h4 h5 h6 h7 => exact (funct3_exhausted _ h0 h1 h2 h3 h4 h5 h6 h7).elim
    all_goals
      next h3 =>
      rw [type_of_setType h, eq_of_setWidth (by decide) h3]
      rfl
  next => cases h

theorem decodeOp32_ok (h : decodeOp32 w instr = .ok r) :
    encodingOf r.type = .r opOp32 (funct3 w) (funct7 w) := by
  unfold decodeOp32 readFieldsR at h
  simp only [getFunct3_eq, getFunct7_eq] at h
  split at h
  next h7 =>
    rw [eq_of_setWidth (by decide) h7]
    split at h
    case h_4 => cases h
    all_goals
      next h3 =>
      rw [type_of_setType h, eq_of_setWidth (by decide) h3]
      rfl
  next h7 =>
    rw [eq_of_setWidth (by decide) h7]
    split at h
    case h_3 => cases h
    all_goals
      next h3 =>
      rw [type_of_setType h, eq_of_setWidth (by decide) h3]
      rfl
  next h7 =>
    rw [eq_of_setWidth (by decide) h7]
    split at h
    case h_6 => cases h
    all_goals
      next h3 =>
      rw [type_of_setType h, eq_of_setWidth (by decide) h3]
      rfl
  next => cases h

/-- The flag of an immediate shift is bit 30 of the word. -/
theorem shift_flag_eq (imm : BitVec 12) :
    hasBit (imm.signExtend 32) 10 = (imm.extractLsb' 6 6).getLsbD 4 := by
  rw [hasBit_eq_getLsbD _ (by omega), BitVec.getLsbD_signExtend, BitVec.getLsbD_extractLsb']
  rfl

/-- A word of the immediate operations: a row of the I layout, or one of the three shifts,
which funct3 and one bit of the immediate tell apart. -/
inductive ShiftRow (op : BitVec 7) (sll sra srl : InstructionType) (w : BitVec 32)
    (t : InstructionType) : Prop where
  | plain (henc : encodingOf t = .i op (funct3 w))
  | left (h3 : funct3 w = 0b001) (ht : t = sll)
  | arithmetic (h3 : funct3 w = 0b101)
    (hflag : ((immI w).extractLsb' 6 6).getLsbD 4 = true) (ht : t = sra)
  | logical (h3 : funct3 w = 0b101)
    (hflag : ((immI w).extractLsb' 6 6).getLsbD 4 = false) (ht : t = srl)

theorem decodeOpImm_ok (h : decodeOpImm w instr = .ok r) :
    ShiftRow opImm .SLLI .SRAI .SRLI w r.type := by
  unfold decodeOpImm readFieldsI at h
  simp only [getFunct3_eq, getImmediateI_eq, shift_flag_eq] at h
  split at h
  case h_2 h3 => exact .left (eq_of_setWidth (by decide) h3) (type_of_setType h)
  case h_6 h3 =>
    have h3 := eq_of_setWidth (by decide) h3
    split at h
    next hflag => exact .arithmetic h3 hflag (type_of_setType h)
    next hflag => exact .logical h3 (Bool.eq_false_iff.mpr hflag) (type_of_setType h)
  case h_9 h0 h1 h2 h3 h4 h5 h6 h7 => exact (funct3_exhausted _ h0 h1 h2 h3 h4 h5 h6 h7).elim
  all_goals
    next h3 =>
    apply ShiftRow.plain
    rw [type_of_setType h, eq_of_setWidth (by decide) h3]
    rfl

theorem decodeOpImm32_ok (h : decodeOpImm32 w instr = .ok r) :
    ShiftRow opImm32 .SLLIW .SRAIW .SRLIW w r.type := by
  unfold decodeOpImm32 readFieldsI at h
  simp only [getFunct3_eq, getImmediateI_eq, shift_flag_eq] at h
  split at h
  case h_1 h3 =>
    apply ShiftRow.plain
    rw [type_of_setType h, eq_of_setWidth (by decide) h3]
    rfl
  case h_2 h3 => exact .left (eq_of_setWidth (by decide) h3) (type_of_setType h)
  case h_3 h3 =>
    have h3 := eq_of_setWidth (by decide) h3
    split at h
    next hflag => exact .arithmetic h3 hflag (type_of_setType h)
    next hflag => exact .logical h3 (Bool.eq_false_iff.mpr hflag) (type_of_setType h)
  case h_4 => cases h

/-- The two fence words that are types of their own. -/
def IsFenceHintField (field : BitVec 12) : Prop :=
  field = 0b100000110011 ∨ field = 0b000000010000

theorem decodeMiscMem_ok (h : decodeMiscMem w instr = .ok r) :
    (funct3 w = 0b000 ∧ immI w = 0b100000110011 ∧ r.type = .FENCETSO) ∨
      (funct3 w = 0b000 ∧ immI w = 0b000000010000 ∧ r.type = .PAUSE) ∨
      (funct3 w = 0b000 ∧ ¬IsFenceHintField (immI w) ∧ r.type = .FENCE) ∨
      (funct3 w = 0b001 ∧ r.type = .FENCEI) := by
  unfold decodeMiscMem readFieldsI at h
  simp only [getFunct3_eq, getImmediateI_eq, fence_field] at h
  split at h
  next h3 =>
    have h3 := eq_of_setWidth (by decide) h3
    split at h
    next himm =>
      exact .inl ⟨h3, eq_of_setWidth (by decide) himm, type_of_setType h⟩
    next himm =>
      exact .inr (.inl ⟨h3, eq_of_setWidth (by decide) himm, type_of_setType h⟩)
    next htso hpause =>
      refine .inr (.inr (.inl ⟨h3, ?_, type_of_setType h⟩))
      rintro (himm | himm)
      · exact htso (by rw [himm]; rfl)
      · exact hpause (by rw [himm]; rfl)
  next h3 =>
    exact .inr (.inr (.inr ⟨eq_of_setWidth (by decide) h3, type_of_setType h⟩))
  next => cases h

theorem decodeSystem_ok (h : decodeSystem w instr = .ok r) :
    (funct3 w = 0b000 ∧ immI w = 0b000000000000 ∧ r.type = .ECALL) ∨
      (funct3 w = 0b000 ∧ immI w = 0b000000000001 ∧ r.type = .EBREAK) ∨
      extensionOf r.type = .zicsr := by
  have hwide : ∀ field : BitVec 12, ∀ value : BitVec 32, field.signExtend 32 = value →
      field = value.setWidth 12 := by
    intro field value heq
    rw [← heq, setWidth_signExtend _ (by decide)]
  unfold decodeSystem readFieldsI at h
  simp only [getFunct3_eq, getImmediateI_eq] at h
  split at h
  next h3 =>
    have h3 := eq_of_setWidth (by decide) h3
    split at h
    next himm =>
      exact .inl ⟨h3, hwide _ _ himm, type_of_setType h⟩
    next himm =>
      exact .inr (.inl ⟨h3, hwide _ _ himm, type_of_setType h⟩)
    next => cases h
  case h_8 => cases h
  all_goals
    right
    right
    rw [type_of_setType h]
    rfl

theorem decodeAMO_ok (h : decodeAMO w instr = .ok r) :
    encodingOf r.type = .amo opAmo (funct3 w) ((funct7 w).extractLsb' 2 5) ∧
        (funct7 w).extractLsb' 2 5 ≠ 0b00010 ∨
      encodingOf r.type = .lr opAmo (funct3 w) ((funct7 w).extractLsb' 2 5) ∧
        (funct7 w).extractLsb' 2 5 = 0b00010 := by
  unfold decodeAMO readFieldsR at h
  simp only [getFunct3_eq, getFunct7_eq, (amo_fields _).1] at h
  split at h
  case h_3 => cases h
  all_goals
    next h3 =>
    rw [eq_of_setWidth (by decide) h3]
    split at h
    case h_12 => cases h
    all_goals
      next h5 =>
      rw [type_of_setType h, eq_of_setWidth (by decide) h5]
      first
      | exact .inl ⟨rfl, by decide⟩
      | exact .inr ⟨rfl, rfl⟩

section Float

/-- The opcodes of the F and D extensions. -/
def floatOpcodes : List (BitVec 7) :=
  [opLoadFP, opStoreFP, opMadd, opMsub, opNmadd, opNmsub, opFP]

theorem float_of_opcode {t : InstructionType} (h : (encodingOf t).fixedOpcode ∈ floatOpcodes) :
    extensionOf t = .float := by
  simp only [floatOpcodes, List.mem_cons, List.not_mem_nil, or_false] at h
  generalize ho : (encodingOf t).fixedOpcode = op at h
  -- a row of another extension fixes an opcode outside the list
  cases t <;> first | rfl | (cases ho; exact absurd h (by decide))

theorem opcode_of_setType {t : InstructionType} {op : BitVec 7}
    (ht : (encodingOf t).fixedOpcode = op) (h : setType instr t = .ok r) :
    (encodingOf r.type).fixedOpcode = op := by
  rw [type_of_setType h]
  exact ht

theorem opcode_of_setType_pair {single double : InstructionType} {isSingle : Bool} {op : BitVec 7}
    (hsingle : (encodingOf single).fixedOpcode = op)
    (hdouble : (encodingOf double).fixedOpcode = op)
    (h : setType instr (if isSingle then single else double) = .ok r) :
    (encodingOf r.type).fixedOpcode = op := by
  refine opcode_of_setType ?_ h
  cases isSingle with
  | true => exact hsingle
  | false => exact hdouble

theorem decodeLoadFP_ok (h : decodeLoadFP w instr = .ok r) :
    (encodingOf r.type).fixedOpcode = opLoadFP := by
  unfold decodeLoadFP readFieldsI at h
  dsimp only at h
  split at h
  case h_3 => cases h
  all_goals exact opcode_of_setType rfl h

theorem decodeStoreFP_ok (h : decodeStoreFP w instr = .ok r) :
    (encodingOf r.type).fixedOpcode = opStoreFP := by
  unfold decodeStoreFP readFieldsS at h
  dsimp only at h
  split at h
  case h_3 => cases h
  all_goals exact opcode_of_setType rfl h

theorem decodeFPFusedMultiplyAdd_ok {op : BitVec 7}
    (hop : op ∈ [opMadd, opMsub, opNmadd, opNmsub])
    (h : decodeFPFusedMultiplyAdd w (Opcode.cast (op.setWidth 8)) instr = .ok r) :
    (encodingOf r.type).fixedOpcode = op := by
  simp only [List.mem_cons, List.not_mem_nil, or_false] at hop
  unfold decodeFPFusedMultiplyAdd readFieldsR at h
  dsimp only at h
  split at h
  case h_3 => cases h
  all_goals rcases hop with rfl | rfl | rfl | rfl <;> exact opcode_of_setType rfl h

theorem decodeOpFP_ok (h : decodeOpFP w instr = .ok r) :
    (encodingOf r.type).fixedOpcode = opFP := by
  unfold decodeOpFP readFieldsR at h
  dsimp only at h
  split at h
  case h_1 | h_2 | h_3 => exact opcode_of_setType_pair rfl rfl h
  case h_13 => cases h
  all_goals
    split at h <;> first
    | exact opcode_of_setType_pair rfl rfl h
    | cases h

end Float

theorem opcode_of_zicsr {t : InstructionType} (h : extensionOf t = .zicsr) :
    (encodingOf t).fixedOpcode = opSystem := by
  revert h
  cases t <;> decide

theorem ShiftRow.opcode {op : BitVec 7} {sll sra srl t : InstructionType}
    (h : ShiftRow op sll sra srl w t) (hsll : (encodingOf sll).fixedOpcode = op)
    (hsra : (encodingOf sra).fixedOpcode = op) (hsrl : (encodingOf srl).fixedOpcode = op) :
    (encodingOf t).fixedOpcode = op := by
  cases h with
  | plain henc => rw [henc, Encoding.fixedOpcode]
  | left h3 ht => rw [ht, hsll]
  | arithmetic h3 hflag ht => rw [ht, hsra]
  | logical h3 hflag ht => rw [ht, hsrl]

/-- An accepted word is decoded to a type of its own opcode. -/
theorem decodeInstruction_opcode (hdecode : decodeInstruction instr w = .ok r) :
    (encodingOf r.type).fixedOpcode = opcode w := by
  have hdispatched := dispatched w instr
  rw [hdecode] at hdispatched
  generalize hresult : Except.ok r = result at hdispatched
  replace hresult := hresult.symm
  cases hdispatched with
  | lui hop | auipc hop | jal hop | jalr hop =>
    rw [hop]
    exact opcode_of_setType rfl hresult
  | branch hop =>
    rw [decodeBranch_ok hresult]
    exact hop.symm
  | load hop =>
    rw [decodeLoad_ok hresult]
    exact hop.symm
  | store hop =>
    rw [decodeStore_ok hresult]
    exact hop.symm
  | opImm hop => exact ((decodeOpImm_ok hresult).opcode rfl rfl rfl).trans hop.symm
  | opImm32 hop => exact ((decodeOpImm32_ok hresult).opcode rfl rfl rfl).trans hop.symm
  | op hop =>
    rw [decodeOp_ok hresult]
    exact hop.symm
  | op32 hop =>
    rw [decodeOp32_ok hresult]
    exact hop.symm
  | miscMem hop =>
    rcases decodeMiscMem_ok hresult with ⟨-, -, ht⟩ | ⟨-, -, ht⟩ | ⟨-, -, ht⟩ | ⟨-, ht⟩
    all_goals
      rw [ht]
      exact hop.symm
  | system hop =>
    rcases decodeSystem_ok hresult with ⟨-, -, ht⟩ | ⟨-, -, ht⟩ | hcsr
    · rw [ht]
      exact hop.symm
    · rw [ht]
      exact hop.symm
    · rw [hop]
      exact opcode_of_zicsr hcsr
  | amo hop =>
    rcases decodeAMO_ok hresult with ⟨henc, -⟩ | ⟨henc, -⟩
    all_goals
      rw [henc]
      exact hop.symm
  | loadFP hop => exact (decodeLoadFP_ok hresult).trans hop.symm
  | storeFP hop => exact (decodeStoreFP_ok hresult).trans hop.symm
  | madd hop | msub hop | nmadd hop | nmsub hop =>
    rw [hop]
    exact decodeFPFusedMultiplyAdd_ok (by simp) hresult
  | opFP hop => exact (decodeOpFP_ok hresult).trans hop.symm
  | unknown hop => cases hresult

/-- The fixed bits no sub-decoder looks at, field by field of the word. -/
structure CanonicalWord (w : BitVec 32) : Prop where
  jalr : opcode w = opJalr → funct3 w = 0b000
  shiftLeft : opcode w = opImm → funct3 w = 0b001 → (immI w).extractLsb' 6 6 = 0b000000
  shiftRight : opcode w = opImm → funct3 w = 0b101 →
    (immI w).extractLsb' 6 6 = 0b000000 ∨ (immI w).extractLsb' 6 6 = 0b010000
  shiftLeftWord : opcode w = opImm32 → funct3 w = 0b001 → funct7 w = 0b0000000
  shiftRightWord : opcode w = opImm32 → funct3 w = 0b101 →
    funct7 w = 0b0000000 ∨ funct7 w = 0b0100000
  fenceHint : opcode w = opMiscMem → funct3 w = 0b000 → IsFenceHintField (immI w) →
    rs1 w = 0 ∧ rd w = 0
  environment : opcode w = opSystem → funct3 w = 0b000 → rs1 w = 0 ∧ rd w = 0
  loadReserved : opcode w = opAmo → (funct7 w).extractLsb' 2 5 = 0b00010 → rs2 w = 0

/-- The opcodes with a check left out. -/
def uncheckedOpcodes : List (BitVec 7) := [opJalr, opImm, opImm32, opMiscMem, opSystem, opAmo]

theorem canonicalWord_of_checked (hop : opcode w ∉ uncheckedOpcodes) : CanonicalWord w := by
  constructor <;> intro ho <;> exact absurd (by rw [ho]; decide) hop

theorem canonicalWord_jalr (hop : opcode w = opJalr) : CanonicalWord w ↔ funct3 w = 0b000 := by
  constructor
  · exact fun h => h.jalr hop
  · intro h3
    constructor <;> intro ho
    case jalr => exact h3
    all_goals exact absurd (hop.symm.trans ho) (by decide)

theorem canonicalWord_opImm (hop : opcode w = opImm) : CanonicalWord w ↔
    (funct3 w = 0b001 → (immI w).extractLsb' 6 6 = 0b000000) ∧
      (funct3 w = 0b101 →
        (immI w).extractLsb' 6 6 = 0b000000 ∨ (immI w).extractLsb' 6 6 = 0b010000) := by
  constructor
  · exact fun h => ⟨h.shiftLeft hop, h.shiftRight hop⟩
  · rintro ⟨hleft, hright⟩
    constructor <;> intro ho
    case shiftLeft => exact hleft
    case shiftRight => exact hright
    all_goals exact absurd (hop.symm.trans ho) (by decide)

theorem canonicalWord_opImm32 (hop : opcode w = opImm32) : CanonicalWord w ↔
    (funct3 w = 0b001 → funct7 w = 0b0000000) ∧
      (funct3 w = 0b101 → funct7 w = 0b0000000 ∨ funct7 w = 0b0100000) := by
  constructor
  · exact fun h => ⟨h.shiftLeftWord hop, h.shiftRightWord hop⟩
  · rintro ⟨hleft, hright⟩
    constructor <;> intro ho
    case shiftLeftWord => exact hleft
    case shiftRightWord => exact hright
    all_goals exact absurd (hop.symm.trans ho) (by decide)

theorem canonicalWord_miscMem (hop : opcode w = opMiscMem) : CanonicalWord w ↔
    (funct3 w = 0b000 → IsFenceHintField (immI w) → rs1 w = 0 ∧ rd w = 0) := by
  constructor
  · exact fun h => h.fenceHint hop
  · intro hhint
    constructor <;> intro ho
    case fenceHint => exact hhint
    all_goals exact absurd (hop.symm.trans ho) (by decide)

theorem canonicalWord_system (hop : opcode w = opSystem) : CanonicalWord w ↔
    (funct3 w = 0b000 → rs1 w = 0 ∧ rd w = 0) := by
  constructor
  · exact fun h => h.environment hop
  · intro henv
    constructor <;> intro ho
    case environment => exact henv
    all_goals exact absurd (hop.symm.trans ho) (by decide)

theorem canonicalWord_amo (hop : opcode w = opAmo) : CanonicalWord w ↔
    ((funct7 w).extractLsb' 2 5 = 0b00010 → rs2 w = 0) := by
  constructor
  · exact fun h => h.loadReserved hop
  · intro hlr
    constructor <;> intro ho
    case loadReserved => exact hlr
    all_goals exact absurd (hop.symm.trans ho) (by decide)

section Rows
variable {t : InstructionType}

theorem matches_jalr (hop : opcode w = opJalr) (ht : r.type = .JALR) :
    (encodingOf r.type).Matches w ↔ CanonicalWord w := by
  rw [canonicalWord_jalr hop, ht]
  exact ⟨fun h => h.2, fun h => ⟨hop, h⟩⟩

/-- A shift matches its row when `field`, the bits above the shift amount, is the row's. -/
theorem ShiftRow.matches_iff {op : BitVec 7} {sll sra srl : InstructionType} {n : Nat}
    {field zero one : BitVec n} (h : ShiftRow op sll sra srl w t)
    (hop : InstructionFormat.opcode w = op)
    (hplain : ∀ f3, encodingOf t = .i op f3 → f3 ≠ 0b001 ∧ f3 ≠ 0b101)
    (hsll : (encodingOf sll).Matches w ↔ funct3 w = 0b001 ∧ field = zero)
    (hsra : (encodingOf sra).Matches w ↔ funct3 w = 0b101 ∧ field = one)
    (hsrl : (encodingOf srl).Matches w ↔ funct3 w = 0b101 ∧ field = zero)
    (hzero : field = zero → ((immI w).extractLsb' 6 6).getLsbD 4 = false)
    (hone : field = one → ((immI w).extractLsb' 6 6).getLsbD 4 = true) :
    (encodingOf t).Matches w ↔
      (funct3 w = 0b001 → field = zero) ∧ (funct3 w = 0b101 → field = zero ∨ field = one) := by
  cases h with
  | plain henc =>
    obtain ⟨hne, hne'⟩ := hplain _ henc
    rw [henc]
    exact ⟨fun _ => ⟨fun h1 => absurd h1 hne, fun h5 => absurd h5 hne'⟩, fun _ => ⟨hop, rfl⟩⟩
  | left h3 ht =>
    rw [ht, hsll, h3]
    simp
  | arithmetic h3 hflag ht =>
    have hne : field ≠ zero := fun h => Bool.noConfusion (hflag.symm.trans (hzero h))
    rw [ht, hsra, h3]
    simp [hne]
  | logical h3 hflag ht =>
    have hne : field ≠ one := fun h => Bool.noConfusion (hflag.symm.trans (hone h))
    rw [ht, hsrl, h3]
    simp [hne]

theorem matches_opImm (hop : opcode w = opImm) (h : decodeOpImm w instr = .ok r) :
    (encodingOf r.type).Matches w ↔ CanonicalWord w := by
  rw [canonicalWord_opImm hop]
  apply (decodeOpImm_ok h).matches_iff hop
  · intro f3 henc
    generalize r.type = t at henc
    cases t <;> cases henc <;> decide
  · exact and_iff_right hop
  · exact and_iff_right hop
  · exact and_iff_right hop
  · intro h6
    rw [h6]
    rfl
  · intro h6
    rw [h6]
    rfl

/-- The six upper immediate bits are the upper bits of funct7. -/
theorem upper_bit_funct7 (w : BitVec 32) :
    ((immI w).extractLsb' 6 6).getLsbD 4 = (funct7 w).getLsbD 5 := by
  simp only [immI, BitVec.getLsbD_extractLsb', BitVec.getLsbD_append]
  simp

theorem matches_opImm32 (hop : opcode w = opImm32) (h : decodeOpImm32 w instr = .ok r) :
    (encodingOf r.type).Matches w ↔ CanonicalWord w := by
  rw [canonicalWord_opImm32 hop]
  apply (decodeOpImm32_ok h).matches_iff hop
  · intro f3 henc
    generalize r.type = t at henc
    cases t <;> cases henc
    decide
  · exact and_iff_right hop
  · exact and_iff_right hop
  · exact and_iff_right hop
  · intro h7
    rw [upper_bit_funct7, h7]
    rfl
  · intro h7
    rw [upper_bit_funct7, h7]
    rfl

theorem matches_miscMem (hop : opcode w = opMiscMem) (h : decodeMiscMem w instr = .ok r) :
    (encodingOf r.type).Matches w ↔ CanonicalWord w := by
  rw [canonicalWord_miscMem hop]
  rcases decodeMiscMem_ok h with ⟨h3, himm, ht⟩ | ⟨h3, himm, ht⟩ | ⟨h3, hfield, ht⟩ | ⟨h3, ht⟩
  · rw [ht]
    exact ⟨fun hm _ _ => hm.2.2.2, fun hhint => ⟨hop, h3, himm, hhint h3 (.inl himm)⟩⟩
  · rw [ht]
    exact ⟨fun hm _ _ => hm.2.2.2, fun hhint => ⟨hop, h3, himm, hhint h3 (.inr himm)⟩⟩
  · rw [ht]
    exact ⟨fun _ _ hhint => absurd hhint hfield, fun _ => ⟨hop, h3⟩⟩
  · rw [ht]
    exact ⟨fun _ h0 => absurd (h3.symm.trans h0) (by decide), fun _ => ⟨hop, h3⟩⟩

theorem matches_system (hint : IsInteger r.type) (hop : opcode w = opSystem)
    (h : decodeSystem w instr = .ok r) : (encodingOf r.type).Matches w ↔ CanonicalWord w := by
  rw [canonicalWord_system hop]
  rcases decodeSystem_ok h with ⟨h3, himm, ht⟩ | ⟨h3, himm, ht⟩ | hcsr
  · rw [ht]
    exact ⟨fun hm _ => hm.2.2.2, fun henv => ⟨hop, h3, himm, henv h3⟩⟩
  · rw [ht]
    exact ⟨fun hm _ => hm.2.2.2, fun henv => ⟨hop, h3, himm, henv h3⟩⟩
  · exact absurd hcsr hint.1

theorem matches_amo (hop : opcode w = opAmo) (h : decodeAMO w instr = .ok r) :
    (encodingOf r.type).Matches w ↔ CanonicalWord w := by
  rw [canonicalWord_amo hop]
  rcases decodeAMO_ok h with ⟨henc, hne⟩ | ⟨henc, heq⟩
  · rw [henc]
    exact ⟨fun _ h5 => absurd h5 hne, fun _ => ⟨hop, rfl, rfl⟩⟩
  · rw [henc]
    exact ⟨fun hm _ => hm.2.2.2, fun hlr => ⟨hop, rfl, rfl, hlr heq⟩⟩

end Rows

/-- An accepted word carries the fixed bits of its type exactly when the checks left out
would have passed. -/
theorem matches_iff_canonicalWord (hdecode : decodeInstruction {} w = .ok r)
    (hint : IsInteger r.type) : (encodingOf r.type).Matches w ↔ CanonicalWord w := by
  have checked {op : BitVec 7} (hop : opcode w = op) (hne : op ∉ uncheckedOpcodes)
      (hm : (encodingOf r.type).Matches w) : (encodingOf r.type).Matches w ↔ CanonicalWord w :=
    ⟨fun _ => canonicalWord_of_checked (hop ▸ hne), fun _ => hm⟩
  have float {op : BitVec 7} (hop : opcode w = op) (hmem : op ∈ floatOpcodes) :
      (encodingOf r.type).Matches w ↔ CanonicalWord w := by
    have hsame : (encodingOf r.type).fixedOpcode = op :=
      (decodeInstruction_opcode hdecode).trans hop
    exact absurd (float_of_opcode (hsame ▸ hmem)) hint.2
  have hdispatched := dispatched w {}
  rw [hdecode] at hdispatched
  generalize hresult : Except.ok r = result at hdispatched
  cases hdispatched with
  | lui hop =>
    exact checked hop (by decide) (by rw [type_of_setType hresult.symm]; exact hop)
  | auipc hop =>
    exact checked hop (by decide) (by rw [type_of_setType hresult.symm]; exact hop)
  | jal hop =>
    exact checked hop (by decide) (by rw [type_of_setType hresult.symm]; exact hop)
  | jalr hop => exact matches_jalr hop (type_of_setType hresult.symm)
  | branch hop =>
    exact checked hop (by decide) (by rw [decodeBranch_ok hresult.symm]; exact ⟨hop, rfl⟩)
  | load hop =>
    exact checked hop (by decide) (by rw [decodeLoad_ok hresult.symm]; exact ⟨hop, rfl⟩)
  | store hop =>
    exact checked hop (by decide) (by rw [decodeStore_ok hresult.symm]; exact ⟨hop, rfl⟩)
  | opImm hop => exact matches_opImm hop hresult.symm
  | opImm32 hop => exact matches_opImm32 hop hresult.symm
  | op hop =>
    exact checked hop (by decide) (by rw [decodeOp_ok hresult.symm]; exact ⟨hop, rfl, rfl⟩)
  | op32 hop =>
    exact checked hop (by decide) (by rw [decodeOp32_ok hresult.symm]; exact ⟨hop, rfl, rfl⟩)
  | miscMem hop => exact matches_miscMem hop hresult.symm
  | system hop => exact matches_system hint hop hresult.symm
  | amo hop => exact matches_amo hop hresult.symm
  | loadFP hop | storeFP hop | madd hop | msub hop | nmadd hop | nmsub hop | opFP hop =>
    exact float hop (by decide)
  | unknown hop => cases hresult

theorem disassemble_type (encoding : Encoding) (t : InstructionType) (w : BitVec 32) :
    (encoding.disassemble t w).type = t := by
  cases encoding <;> rfl

theorem encode_eq_iff_canonicalWord (hdecode : decodeInstruction {} w = .ok r)
    (hint : IsInteger r.type) : encode r = w ↔ CanonicalWord w := by
  rw [← matches_iff_canonicalWord hdecode hint]
  constructor
  · intro heq
    have hmatch : (encodingOf r.type).Matches (encode r) := matches_assemble ..
    rwa [heq] at hmatch
  · intro hmatch
    have hfield : r.type = .FENCE → immI w ≠ 0b100000110011 ∧ immI w ≠ 0b000000010000 := by
      intro hfence
      have hop : opcode w = opMiscMem := by
        rw [hfence] at hmatch
        exact hmatch.1
      rw [(Dispatched.miscMem hop).eq] at hdecode
      rcases decodeMiscMem_ok hdecode with ⟨-, -, ht⟩ | ⟨-, -, ht⟩ | ⟨-, hne, -⟩ | ⟨-, ht⟩
      · exact absurd (hfence.symm.trans ht) (by decide)
      · exact absurd (hfence.symm.trans ht) (by decide)
      · exact ⟨fun h => hne (.inl h), fun h => hne (.inr h)⟩
      · exact absurd (hfence.symm.trans ht) (by decide)
    have hread := Except.ok.inj (hdecode.symm.trans (decode_row w r.type hint hmatch hfield))
    calc encode r = encode ((encodingOf r.type).disassemble r.type w) := congrArg encode hread
      _ = (encodingOf r.type).assemble ((encodingOf r.type).disassemble r.type w) := by
        rw [encode, disassemble_type]
      _ = w := assemble_disassemble _ _ w hmatch

/-- The four bytes at a position of an accepted program are the encoding of the integer
instruction decoded there exactly when their word passes the checks left out. -/
theorem decoded_bytes_canonical_iff (native : Endian) (program : List Byte)
    (instrs : List Instruction) (haccept : decodeInstructions native program = .ok instrs)
    (i : Nat) (hi : i < instrs.length) (hint : IsInteger instrs[i].type) :
    ∃ w, (program.drop (4 * i)).take 4 = wordBytes w ∧
      ((program.drop (4 * i)).take 4 = wordBytes (encode instrs[i]) ↔ CanonicalWord w) := by
  obtain ⟨-, hall⟩ := (decodeInstructions_ok_iff native program instrs).mp haccept
  have hw : i < (words program).length := by
    rw [hall.length_eq]
    exact hi
  have hdecode := (decodeWord_ok_low_bits (hall.get hw hi)).2
  simp only [List.get_eq_getElem] at hdecode
  refine ⟨(words program)[i], (wordBytes_getElem program i hw).symm, ?_⟩
  rw [← wordBytes_getElem program i hw, ← encode_eq_iff_canonicalWord hdecode hint]
  constructor
  · intro h
    exact (wordBytes_injective h).symm
  · intro h
    rw [h]

/-- JALR with funct3 = 1 is accepted as JALR. -/
theorem decoded_bytes_canonical_iff_jalr :
    ∃ w, ((wordBytes 0x00000013#32 ++ wordBytes 0x00001067#32).drop (4 * 1)).take 4 = wordBytes w ∧
      (((wordBytes 0x00000013#32 ++ wordBytes 0x00001067#32).drop (4 * 1)).take 4 =
        wordBytes (encode ([{ type := .ADDI }, { type := .JALR }] : List Instruction)[1]) ↔
          CanonicalWord w) :=
  decoded_bytes_canonical_iff .little (wordBytes 0x00000013#32 ++ wordBytes 0x00001067#32)
    [{ type := .ADDI }, { type := .JALR }] rfl 1 (by decide) (by decide)

/-- A reserved word decodes to a JALR whose encoding is another word. -/
theorem decoded_bytes_not_canonical :
    ¬∀ (native : Endian) (program : List Byte) (instrs : List Instruction),
      decodeInstructions native program = .ok instrs →
      ∀ (i : Nat) (hi : i < instrs.length), IsInteger instrs[i].type →
        (program.drop (4 * i)).take 4 = wordBytes (encode instrs[i]) := by
  intro h
  have hread := h .little (wordBytes 0x00001067#32) [{ type := .JALR }] rfl 0 (by decide)
    (by decide)
  exact absurd hread (by decide)

end RiscvEmulator.Guarantees
