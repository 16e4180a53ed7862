import RiscvEmulator.Guarantees.CanonicalWords
import RiscvEmulator.Guarantees.DecoderOutcomes

/-!
# Where the fields of a decoded instruction come from

A sub-decoder reads the fields of its format and then settles on a type; besides, some
write the union of the immediate and the floating-point parameters. So the register
fields of a decoded instruction are those of the word, the ones its format lacks keep
their initial value, and so does the union where no sub-decoder writes it.
-/
namespace RiscvEmulator.Guarantees
open Source Spec Library InstructionFormat

variable {w : BitVec 32} {instr fields r : Instruction}

/-- The format of the words of each major opcode; that of the fused multiply-adds has a
third source in the place of funct5. -/
def formatOf (op : BitVec 7) : Format :=
  if op = opLui ∨ op = opAuipc then .U
  else if op = opJal then .J
  else if op = opBranch then .B
  else if op = opStore ∨ op = opStoreFP then .S
  else if op = opOp ∨ op = opOp32 ∨ op = opAmo ∨ op = opFP ∨ op = opMadd ∨ op = opMsub ∨
    op = opNmsub ∨ op = opNmadd then .R
  else .I

/-- The opcodes of the fused multiply-adds. -/
def fusedOpcodes : List (BitVec 7) := [opMadd, opMsub, opNmsub, opNmadd]

/-- The register fields of the format are those of the word, the others are 0. -/
structure HasRegisters (format : Format) (w : BitVec 32) (r : Instruction) : Prop where
  destination : r.destinationRegister = if format.hasRd then (rd w).setWidth 8 else 0
  source1 : r.sourceRegister1 = if format.hasRs1 then (rs1 w).setWidth 8 else 0
  source2 : r.sourceRegister2 = if format.hasRs2 then (rs2 w).setWidth 8 else 0

section Readers

/-- A write of the union leaves the registers outside it. -/
theorem HasRegisters.setUnion {format : Format} (hfields : HasRegisters format w fields)
    (union : BitVec 32) : HasRegisters format w { fields with immediate := union } :=
  ⟨hfields.destination, hfields.source1, hfields.source2⟩

theorem HasRegisters.of_settlesOn {format : Format} (hfields : HasRegisters format w fields)
    (h : SettlesOn fields r) : HasRegisters format w r := by
  rw [h]
  exact ⟨hfields.destination, hfields.source1, hfields.source2⟩

theorem HasRegisters.of_outcome {format : Format} {clazz : String}
    {result : Except Thrown Instruction} (hfields : HasRegisters format w fields)
    (h : Outcome w clazz (SettlesOn fields) result) (hok : result = .ok r) :
    HasRegisters format w r := hfields.of_settlesOn (h.settles hok)

theorem HasRegisters.of_union_outcome {format : Format} {clazz : String}
    {result : Except Thrown Instruction} (hfields : HasRegisters format w fields)
    (h : Outcome w clazz (SettlesOnUnion fields) result) (hok : result = .ok r) :
    HasRegisters format w r := (hfields.setUnion _).of_settlesOn (h.settles hok)

theorem readFieldsR_registers (w : BitVec 32) (instr : Instruction) :
    HasRegisters .R w (readFieldsR w instr).1 :=
  ⟨getDestinationRegister_eq w, getSourceRegister1_eq w, getSourceRegister2_eq w⟩

theorem readFieldsI_registers (w : BitVec 32) : HasRegisters .I w (readFieldsI w {}).1 :=
  ⟨getDestinationRegister_eq w, getSourceRegister1_eq w, rfl⟩

theorem readFieldsS_registers (w : BitVec 32) : HasRegisters .S w (readFieldsS w {}).1 :=
  ⟨rfl, getSourceRegister1_eq w, getSourceRegister2_eq w⟩

theorem readFieldsB_registers (w : BitVec 32) : HasRegisters .B w (readFieldsB w {}).1 :=
  ⟨rfl, getSourceRegister1_eq w, getSourceRegister2_eq w⟩

theorem readFieldsU_registers (w : BitVec 32) : HasRegisters .U w (readFieldsU w {}) :=
  ⟨getDestinationRegister_eq w, rfl, rfl⟩

theorem readFieldsJ_registers (w : BitVec 32) : HasRegisters .J w (readFieldsJ w {}) :=
  ⟨getDestinationRegister_eq w, rfl, rfl⟩

end Readers

section Union

/-- The third source is the second byte of the union. -/
theorem sourceRegister3_set (i : Instruction) (index : RegisterIndex) :
    (i.setSourceRegister3 index).sourceRegister3 = index := by
  unfold Instruction.setSourceRegister3 Instruction.sourceRegister3
  dsimp only
  rw [BitVec.extractLsb'_append_eq_of_le (by decide)]
  exact BitVec.extractLsb'_append_eq_right

/-- The rounding mode is the first. -/
theorem sourceRegister3_setRoundingMode (i : Instruction) (mode : FloatRoundingMode) :
    (i.setRoundingMode mode).sourceRegister3 = i.sourceRegister3 := by
  apply BitVec.eq_of_getLsbD_eq
  intro k hk
  simp only [Instruction.setRoundingMode, Instruction.sourceRegister3, BitVec.getLsbD_extractLsb',
    BitVec.getLsbD_append]
  interval_cases k <;> simp

/-- The upper five bits of funct7 are bits 27 to 31 of the word. -/
theorem getFunct7_shift (w : BitVec 32) : getFunct7 w >>> 2 = (w.extractLsb' 27 5).setWidth 8 := by
  rw [getFunct7_eq]
  apply BitVec.eq_of_getLsbD_eq
  intro k hk
  simp only [funct7, BitVec.getLsbD_ushiftRight, BitVec.getLsbD_setWidth,
    BitVec.getLsbD_extractLsb']
  interval_cases k <;> simp

theorem decodeFPFusedMultiplyAdd_source3 {op : Opcode}
    (h : decodeFPFusedMultiplyAdd w op instr = .ok r) :
    r.sourceRegister3 = (w.extractLsb' 27 5).setWidth 8 := by
  have hunion : r.sourceRegister3 = getFunct7 w >>> 2 := by
    rw [(outcome_decodeFPFusedMultiplyAdd _ _ _).settles h]
    exact sourceRegister3_set _ _
  rw [hunion, getFunct7_shift]

theorem decodeOpFP_source3 (hop : opcode w = opFP) (h : decodeOpFP w {} = .ok r) :
    r.sourceRegister3 = 0 := by
  have hunion : r.sourceRegister3 = (readFieldsR w {}).1.sourceRegister3 := by
    rw [(outcome_decodeOpFP _ hop).settles h]
    exact sourceRegister3_setRoundingMode _ _
  have hinitial : (readFieldsR w {}).1.immediate = 0 := rfl
  rw [hunion, Instruction.sourceRegister3, hinitial]
  rfl

theorem decodeAMO_source3 (h : decodeAMO w instr = .ok r) : r.sourceRegister3 = 0 := by
  have hunion : r.immediate = (getFunct7 w &&& 0b11).setWidth 32 := by
    rw [(outcome_decodeAMO _ _).settles h]
  rw [Instruction.sourceRegister3, hunion]
  apply BitVec.eq_of_getLsbD_eq
  intro k hk
  simp only [BitVec.getLsbD_extractLsb', BitVec.getLsbD_setWidth]
  simp

theorem decodeOp_immediate (h : decodeOp w instr = .ok r) : r.immediate = instr.immediate := by
  rw [(outcome_decodeOp _ _).settles h]
  rfl

theorem decodeOp32_immediate (h : decodeOp32 w instr = .ok r) : r.immediate = instr.immediate := by
  rw [(outcome_decodeOp32 _ _).settles h]
  rfl

end Union

/-- The register fields of an accepted word, format by format. -/
theorem decodeInstruction_registers (h : decodeInstruction {} w = .ok r) :
    HasRegisters (formatOf (opcode w)) w r := by
  have hdispatched := dispatched w {}
  rw [h] at hdispatched
  generalize hresult : Except.ok r = result at hdispatched
  replace hresult := hresult.symm
  cases hdispatched with
  | lui hop | auipc hop =>
    rw [hop]
    exact (readFieldsU_registers w).of_outcome (outcome_setType w "" _ _) hresult
  | jal hop =>
    rw [hop]
    exact (readFieldsJ_registers w).of_outcome (outcome_setType w "" _ _) hresult
  | jalr hop =>
    rw [hop]
    exact (readFieldsI_registers w).of_outcome (outcome_setType w "" _ _) hresult
  | branch hop =>
    rw [hop]
    exact (readFieldsB_registers w).of_outcome (outcome_decodeBranch w {}) hresult
  | load hop =>
    rw [hop]
    exact (readFieldsI_registers w).of_outcome (outcome_decodeLoad w {}) hresult
  | store hop =>
    rw [hop]
    exact (readFieldsS_registers w).of_outcome (outcome_decodeStore w {}) hresult
  | opImm hop =>
    rw [hop]
    exact (readFieldsI_registers w).of_union_outcome (outcome_decodeOpImm w {} "") hresult
  | opImm32 hop =>
    rw [hop]
    exact (readFieldsI_registers w).of_union_outcome (outcome_decodeOpImm32 w {}) hresult
  | op hop =>
    rw [hop]
    exact (readFieldsR_registers w {}).of_outcome (outcome_decodeOp w {}) hresult
  | op32 hop =>
    rw [hop]
    exact (readFieldsR_registers w {}).of_outcome (outcome_decodeOp32 w {}) hresult
  | miscMem hop =>
    rw [hop]
    exact (readFieldsI_registers w).of_union_outcome (outcome_decodeMiscMem w {}) hresult
  | system hop =>
    rw [hop]
    exact ((readFieldsI_registers w).setUnion _).of_outcome (outcome_decodeSystem w {}) hresult
  | amo hop =>
    rw [hop]
    exact ((readFieldsR_registers w {}).setUnion _).of_outcome (outcome_decodeAMO w {}) hresult
  | loadFP hop =>
    rw [hop]
    exact (readFieldsI_registers w).of_outcome (outcome_decodeLoadFP w {}) hresult
  | storeFP hop =>
    rw [hop]
    exact (readFieldsS_registers w).of_outcome (outcome_decodeStoreFP w {}) hresult
  | madd hop | msub hop | nmadd hop | nmsub hop =>
    rw [hop]
    exact (((readFieldsR_registers w {}).setUnion _).setUnion _).of_outcome
      (outcome_decodeFPFusedMultiplyAdd w {} _) hresult
  | opFP hop =>
    rw [hop]
    exact ((readFieldsR_registers w {}).setUnion _).of_outcome (outcome_decodeOpFP {} hop) hresult
  | unknown hop => cases hresult

/-- The third source of the fused multiply-adds. -/
theorem decodeInstruction_source3 (h : decodeInstruction {} w = .ok r)
    (hop : opcode w ∈ fusedOpcodes) : r.sourceRegister3 = (w.extractLsb' 27 5).setWidth 8 := by
  simp only [fusedOpcodes, List.mem_cons, List.not_mem_nil, or_false] at hop
  rcases hop with hop | hop | hop | hop
  · rw [(Dispatched.madd hop).eq] at h
    exact decodeFPFusedMultiplyAdd_source3 h
  · rw [(Dispatched.msub hop).eq] at h
    exact decodeFPFusedMultiplyAdd_source3 h
  · rw [(Dispatched.nmsub hop).eq] at h
    exact decodeFPFusedMultiplyAdd_source3 h
  · rw [(Dispatched.nmadd hop).eq] at h
    exact decodeFPFusedMultiplyAdd_source3 h

/-- The immediate of the register operations is not written. -/
theorem decodeInstruction_immediate (h : decodeInstruction {} w = .ok r)
    (hop : opcode w = opOp ∨ opcode w = opOp32) : r.immediate = 0 := by
  rcases hop with hop | hop
  · rw [(Dispatched.op hop).eq] at h
    exact decodeOp_immediate h
  · rw [(Dispatched.op32 hop).eq] at h
    exact decodeOp32_immediate h

/-- Nor is the third source written but by the fused multiply-adds, among the words of
the R format. -/
theorem decodeInstruction_no_source3 (h : decodeInstruction {} w = .ok r)
    (hop : opcode w = opOp ∨ opcode w = opOp32 ∨ opcode w = opAmo ∨ opcode w = opFP) :
    r.sourceRegister3 = 0 := by
  rcases hop with hop | hop | hop | hop
  · rw [Instruction.sourceRegister3, decodeInstruction_immediate h (.inl hop)]
    rfl
  · rw [Instruction.sourceRegister3, decodeInstruction_immediate h (.inr hop)]
    rfl
  · rw [(Dispatched.amo hop).eq] at h
    exact decodeAMO_source3 h
  · rw [(Dispatched.opFP hop).eq] at h
    exact decodeOpFP_source3 hop h

/-- An accepted word is decoded to a type of its opcode, LUI to LUI only; its register
fields are those of the word and the ones its format lacks are 0, as is the immediate of
the register operations. -/
theorem decoded_fields (w : BitVec 32) (r : Instruction) (h : decodeInstruction {} w = .ok r) :
    (encodingOf r.type).fixedOpcode = opcode w ∧ (r.type = .LUI → opcode w = opLui) ∧
      r.destinationRegister =
        (if (formatOf (opcode w)).hasRd then (rd w).setWidth 8 else 0) ∧
      r.sourceRegister1 = (if (formatOf (opcode w)).hasRs1 then (rs1 w).setWidth 8 else 0) ∧
      r.sourceRegister2 = (if (formatOf (opcode w)).hasRs2 then (rs2 w).setWidth 8 else 0) ∧
      (opcode w ∈ fusedOpcodes → r.sourceRegister3 = (w.extractLsb' 27 5).setWidth 8) ∧
      (opcode w = opOp ∨ opcode w = opOp32 ∨ opcode w = opAmo ∨ opcode w = opFP →
        r.sourceRegister3 = 0) ∧
      (opcode w = opOp ∨ opcode w = opOp32 → r.immediate = 0) := by
  have hfamily := decodeInstruction_opcode h
  have hlui : r.type = .LUI → opcode w = opLui := by
    intro htype
    rw [← hfamily, htype]
    rfl
  obtain ⟨hdestination, hsource1, hsource2⟩ := decodeInstruction_registers h
  exact ⟨hfamily, hlui, hdestination, hsource1, hsource2, decodeInstruction_source3 h,
    decodeInstruction_no_source3 h, decodeInstruction_immediate h⟩

/-- FMADD.D f1, f1, f2, f27. -/
theorem decoded_fields_fmadd :
    ∃ r, decodeInstruction {} 0xda2080c3 = .ok r ∧ r.sourceRegister2 = 2 ∧
      r.sourceRegister3 = 27 := by
  have hfields := decoded_fields 0xda2080c3 _ rfl
  exact ⟨_, rfl, hfields.2.2.2.2.1.trans rfl, (hfields.2.2.2.2.2.1 (by decide)).trans rfl⟩

end RiscvEmulator.Guarantees
