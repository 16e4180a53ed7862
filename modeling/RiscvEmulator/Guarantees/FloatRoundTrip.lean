import RiscvEmulator.Guarantees.CanonicalWords

/-!
# Decoding floating-point instructions

The rows of the F and D extensions the decoder reads back, and the ones it does not:
the source compares funct7 of FSQRT with the value of FDIV and tells the two apart by
rs2, and it keeps one sub-opcode for the two conversions between the formats.
-/
namespace RiscvEmulator.Guarantees
open Source Spec Library InstructionFormat WordBytes

section Rows
variable (w : BitVec 32) (instr : Instruction) (t : InstructionType)

theorem decodeLoadFP_row (h : encodingOf t = .i opLoadFP (funct3 w)) :
    decodeLoadFP w instr = .ok { (readFieldsI w instr).1 with type := t } := by
  generalize h3 : funct3 w = f3 at h
  simp only [decodeLoadFP, readFieldsI, getFunct3_eq, h3]
  cases t <;> cases h <;> rfl

theorem decodeStoreFP_row (h : encodingOf t = .s opStoreFP (funct3 w)) :
    decodeStoreFP w instr = .ok { (readFieldsS w instr).1 with type := t } := by
  generalize h3 : funct3 w = f3 at h
  simp only [decodeStoreFP, readFieldsS, getFunct3_eq, h3]
  cases t <;> cases h <;> rfl

/-- The enumerator of the opcode of a fused multiply-add. -/
def fusedOpcode (op : BitVec 7) : Opcode := Opcode.cast (op.setWidth 8)

/-- The decoder's reading of the R fields with a rounding mode. -/
def readFieldsRm (w : BitVec 32) (instr : Instruction) : Instruction :=
  (readFieldsR w instr).1.setRoundingMode (getFunct3 w)

theorem funct2_eq (f : BitVec 7) :
    f.setWidth 8 &&& 0b11 = (f.extractLsb' 0 2).setWidth 8 := by
  revert f
  decide

theorem decodeFPFusedMultiplyAdd_row {op : BitVec 7}
    (h : encodingOf t = .r4 op ((funct7 w).extractLsb' 0 2)) :
    decodeFPFusedMultiplyAdd w (fusedOpcode op) instr =
      .ok { (readFieldsRm w instr).setSourceRegister3 (getFunct7 w >>> 2) with type := t } := by
  have hfunct2 := funct2_eq (funct7 w)
  generalize (funct7 w).extractLsb' 0 2 = f2 at h hfunct2
  simp only [decodeFPFusedMultiplyAdd, readFieldsRm, readFieldsR, getFunct7_eq, hfunct2]
  cases t <;> cases h <;> rfl

theorem decodeOpFP_r (h : encodingOf t = .r opFP (funct3 w) (funct7 w)) :
    decodeOpFP w instr = .ok { readFieldsRm w instr with type := t } := by
  generalize h3 : funct3 w = f3 at h
  generalize h7 : funct7 w = f7 at h
  simp only [decodeOpFP, readFieldsRm, readFieldsR, getFunct3_eq, getFunct7_eq, h3, h7]
  cases t <;> cases h <;> rfl

theorem decodeOpFP_unary (h : encodingOf t = .unary opFP (funct7 w) (rs2 w) (funct3 w)) :
    decodeOpFP w instr = .ok { readFieldsRm w instr with type := t } := by
  generalize h3 : funct3 w = f3 at h
  generalize h7 : funct7 w = f7 at h
  generalize h2 : rs2 w = s2 at h
  simp only [decodeOpFP, readFieldsRm, readFieldsR, getFunct3_eq, getFunct7_eq,
    getSourceRegister2_eq, h2, h3, h7]
  cases t <;> cases h <;> rfl

/-- The conversions are told apart by rs2, but for FSQRT and FCVT.D.S. -/
theorem decodeOpFP_unaryRm (h : encodingOf t = .unaryRm opFP (funct7 w) (rs2 w))
    (hroot : t ≠ .FSQRTS ∧ t ≠ .FSQRTD) (hconvert : t ≠ .FCVTDS) :
    decodeOpFP w instr = .ok { readFieldsRm w instr with type := t } := by
  generalize h7 : funct7 w = f7 at h
  generalize h2 : rs2 w = s2 at h
  simp only [decodeOpFP, readFieldsRm, readFieldsR, getFunct3_eq, getFunct7_eq,
    getSourceRegister2_eq, h2, h7]
  cases t <;> cases h
  case FSQRTS => exact absurd rfl hroot.1
  case FSQRTD => exact absurd rfl hroot.2
  case FCVTDS => exact absurd rfl hconvert
  all_goals rfl

/-- The words of FSQRT and FCVT.D.S are rejected. -/
theorem decodeOpFP_rejects (h : encodingOf t = .unaryRm opFP (funct7 w) (rs2 w))
    (hreject : t = .FSQRTS ∨ t = .FSQRTD ∨ t = .FCVTDS) :
    decodeOpFP w instr = throwUnknown w "OP-FP" := by
  generalize h7 : funct7 w = f7 at h
  generalize h2 : rs2 w = s2 at h
  simp only [decodeOpFP, readFieldsR, getFunct3_eq, getFunct7_eq, getSourceRegister2_eq, h2, h7]
  rcases hreject with rfl | rfl | rfl <;> cases h <;> rfl

theorem decodeOpFP_rm (h : encodingOf t = .rm opFP (funct7 w))
    (hdiv : t = .FDIVS ∨ t = .FDIVD → rs2 w ≠ 0) :
    decodeOpFP w instr = .ok { readFieldsRm w instr with type := t } := by
  have hzero : t = .FDIVS ∨ t = .FDIVD → (rs2 w).setWidth 8 ≠ 0#8 := by
    intro ht heq
    exact hdiv ht (eq_of_setWidth (by decide) heq)
  generalize h7 : funct7 w = f7 at h
  simp only [decodeOpFP, readFieldsRm, readFieldsR, getFunct3_eq, getFunct7_eq,
    getSourceRegister2_eq, h7]
  cases t <;> cases h
  case FDIVS => exact if_neg (hzero (.inl rfl))
  case FDIVD => exact if_neg (hzero (.inr rfl))
  all_goals rfl

/-- A division by f0 is taken for a square root. -/
theorem decodeOpFP_division (h : encodingOf t = .rm opFP (funct7 w))
    (ht : t = .FDIVS ∨ t = .FDIVD) (h2 : rs2 w = 0) :
    ∃ r, decodeOpFP w instr = .ok r ∧ (r.type = .FSQRTS ∨ r.type = .FSQRTD) := by
  generalize h7 : funct7 w = f7 at h
  simp only [decodeOpFP, readFieldsR, getFunct3_eq, getFunct7_eq, getSourceRegister2_eq, h2, h7]
  rcases ht with rfl | rfl
  · cases h
    exact ⟨_, rfl, .inl rfl⟩
  · cases h
    exact ⟨_, rfl, .inr rfl⟩

end Rows

/-- The instructions whose encoding is not decoded to them. -/
def Misdecoded (instr : Instruction) : Prop :=
  instr.type = .FSQRTS ∨ instr.type = .FSQRTD ∨ instr.type = .FCVTDS ∨
    ((instr.type = .FDIVS ∨ instr.type = .FDIVD) ∧ instr.sourceRegister2 = 0)

section Words
variable {instr : Instruction}

theorem setWidth8_setWidth5 {x : RegisterIndex} (hx : x.toNat < 32) :
    (x.setWidth 5).setWidth 8 = x := setWidth_roundtrip x hx

theorem setWidth8_setWidth3 {mode : FloatRoundingMode} (hmode : LegalRoundingMode mode) :
    (mode.setWidth 3).setWidth 8 = mode := by
  refine setWidth_roundtrip mode ?_
  unfold LegalRoundingMode at hmode
  omega

/-- Reading the R fields of a packed word. -/
theorem readFieldsRm_packR (f7 : BitVec 7) (s2 s1 : BitVec 5) (f3 : BitVec 3) (d : BitVec 5)
    (op : BitVec 7) :
    readFieldsRm (packR f7 s2 s1 f3 d op) {} =
      { immediate := f3.setWidth 32, destinationRegister := d.setWidth 8,
        sourceRegister1 := s1.setWidth 8, sourceRegister2 := s2.setWidth 8 } := by
  have hmode : (0 : BitVec 32).extractLsb' 8 24 ++ f3.setWidth 8 = f3.setWidth 32 := by
    revert f3
    decide
  simp only [readFieldsRm, readFieldsR, Instruction.setRoundingMode, getFunct3_eq,
    getDestinationRegister_eq, getSourceRegister1_eq, getSourceRegister2_eq, funct3_packR,
    rd_packR, rs1_packR, rs2_packR, hmode]

theorem roundingMode_setWidth (f3 : BitVec 3) :
    (f3.setWidth 32).extractLsb' 0 8 = f3.setWidth 8 := by
  revert f3
  decide

theorem rs3_setWidth (f3 : BitVec 3) (f7 : BitVec 7) :
    ((f3.setWidth 32).extractLsb' 16 16 ++ f7.setWidth 8 >>> 2 ++
      (f3.setWidth 32).extractLsb' 0 8).extractLsb' 8 8 = (f7.extractLsb' 2 5).setWidth 8 := by
  rw [BitVec.extractLsb'_append_eq_of_le (by decide)]
  exact BitVec.extractLsb'_append_eq_right.trans (amo_fields f7).1

/-- Loads and stores are read back whole. -/
theorem decode_memory (hlegal : Legal instr)
    (hop : (∃ f3, encodingOf instr.type = .i opLoadFP f3) ∨
      ∃ f3, encodingOf instr.type = .s opStoreFP f3) :
    decodeInstruction {} (encode instr) = .ok instr := by
  have hmatch : (encodingOf instr.type).Matches (encode instr) := matches_assemble ..
  have hrow : (encodingOf instr.type).usesFloatOp = false := by
    rcases hop with ⟨f3, henc⟩ | ⟨f3, henc⟩ <;> rw [henc] <;> rfl
  have hback := disassemble_assemble instr hrow hlegal
  rcases hop with ⟨f3, henc⟩ | ⟨f3, henc⟩
  · rw [henc] at hmatch hback
    obtain ⟨hop, rfl⟩ := hmatch
    rw [(Dispatched.loadFP hop).eq, decodeLoadFP_row _ {} instr.type henc]
    refine congrArg Except.ok (Eq.trans ?_ hback)
    simp only [readFieldsI, getDestinationRegister_eq, getSourceRegister1_eq, getImmediateI_eq,
      Encoding.disassemble]
  · rw [henc] at hmatch hback
    obtain ⟨hop, rfl⟩ := hmatch
    rw [(Dispatched.storeFP hop).eq, decodeStoreFP_row _ {} instr.type henc]
    refine congrArg Except.ok (Eq.trans ?_ hback)
    simp only [readFieldsS, getSourceRegister1_eq, getSourceRegister2_eq, getImmediateS_eq,
      Encoding.disassemble]

theorem sameOperands_self (hmem : (∃ f3, encodingOf instr.type = .i opLoadFP f3) ∨
    ∃ f3, encodingOf instr.type = .s opStoreFP f3) : SameOperands instr instr := by
  refine ⟨rfl, ?_⟩
  rcases hmem with ⟨f3, henc⟩ | ⟨f3, henc⟩
  · rw [henc]
  · rw [henc]

/-- The operands of an OP-FP row, as the decoder reads them from its encoding. -/
theorem sameOperands_opFP (hlegal : Legal instr)
    (hrow : (∃ f3 f7, encodingOf instr.type = .r opFP f3 f7) ∨
      (∃ f7, encodingOf instr.type = .rm opFP f7) ∨
      (∃ f7 sub, encodingOf instr.type = .unaryRm opFP f7 sub) ∨
      ∃ f7 sub f3, encodingOf instr.type = .unary opFP f7 sub f3) :
    SameOperands instr { readFieldsRm (encode instr) {} with type := instr.type } := by
  obtain ⟨hd, h1, h2, hformat⟩ := hlegal
  refine ⟨rfl, ?_⟩
  rcases hrow with ⟨f3, f7, henc⟩ | ⟨f7, henc⟩ | ⟨f7, sub, henc⟩ | ⟨f7, sub, f3, henc⟩
  · rw [henc, encode, henc]
    simp only [Encoding.assemble, readFieldsRm_packR, setWidth8_setWidth5 hd,
      setWidth8_setWidth5 h1, setWidth8_setWidth5 h2, and_self]
  · rw [henc] at hformat
    rw [henc, encode, henc]
    simp only [Encoding.assemble, readFieldsRm_packR, setWidth8_setWidth5 hd,
      setWidth8_setWidth5 h1, setWidth8_setWidth5 h2, true_and]
    rw [Instruction.roundingMode, Instruction.roundingMode, roundingMode_setWidth]
    exact (setWidth8_setWidth3 hformat).symm
  · rw [henc] at hformat
    rw [henc, encode, henc]
    simp only [Encoding.assemble, readFieldsRm_packR, setWidth8_setWidth5 hd,
      setWidth8_setWidth5 h1, true_and]
    rw [Instruction.roundingMode, Instruction.roundingMode, roundingMode_setWidth]
    exact (setWidth8_setWidth3 hformat.2).symm
  · rw [henc, encode, henc]
    simp only [Encoding.assemble, readFieldsRm_packR, setWidth8_setWidth5 hd,
      setWidth8_setWidth5 h1, and_self]

theorem sameOperands_fused (hlegal : Legal instr) {op : BitVec 7} {fmt : BitVec 2}
    (henc : encodingOf instr.type = .r4 op fmt) :
    SameOperands instr { (readFieldsRm (encode instr) {}).setSourceRegister3
      (getFunct7 (encode instr) >>> 2) with type := instr.type } := by
  obtain ⟨hd, h1, h2, hformat⟩ := hlegal
  rw [henc] at hformat
  obtain ⟨hmode, h3⟩ := hformat
  refine ⟨rfl, ?_⟩
  rw [henc, encode, henc]
  simp only [Encoding.assemble, readFieldsRm_packR, getFunct7_eq, funct7_packR,
    setWidth8_setWidth5 hd, setWidth8_setWidth5 h1, setWidth8_setWidth5 h2,
    Instruction.setSourceRegister3, true_and]
  constructor
  · have hsplit : (instr.sourceRegister3.setWidth 5 ++ fmt).extractLsb' 2 5 =
        instr.sourceRegister3.setWidth 5 := BitVec.extractLsb'_append_eq_left
    have hread := rs3_setWidth (instr.roundingMode.setWidth 3)
      (instr.sourceRegister3.setWidth 5 ++ fmt)
    rw [hsplit, setWidth8_setWidth5 h3] at hread
    exact hread.symm
  · refine (setWidth8_setWidth3 hmode).symm.trans ?_
    rw [← roundingMode_setWidth]
    exact BitVec.extractLsb'_append_eq_right.symm

theorem dispatch_fused {w : BitVec 32} {t : InstructionType} {op : BitVec 7} {fmt : BitVec 2}
    (henc : encodingOf t = .r4 op fmt) (hop : opcode w = op) :
    decodeInstruction {} w = decodeFPFusedMultiplyAdd w (fusedOpcode op) {} := by
  have hfused : op = opMadd ∨ op = opMsub ∨ op = opNmadd ∨ op = opNmsub := by
    cases t <;> cases henc <;> decide
  rcases hfused with rfl | rfl | rfl | rfl
  · exact (Dispatched.madd hop).eq
  · exact (Dispatched.msub hop).eq
  · exact (Dispatched.nmadd hop).eq
  · exact (Dispatched.nmsub hop).eq

end Words

section FloatRows
variable {t : InstructionType}

/-- The layouts and opcodes of the F and D rows. -/
theorem float_row (hfloat : IsFloat t) :
    (∃ f3, encodingOf t = .i opLoadFP f3) ∨ (∃ f3, encodingOf t = .s opStoreFP f3) ∨
      (∃ op fmt, encodingOf t = .r4 op fmt) ∨ (∃ f3 f7, encodingOf t = .r opFP f3 f7) ∨
      (∃ f7, encodingOf t = .rm opFP f7) ∨ (∃ f7 sub, encodingOf t = .unaryRm opFP f7 sub) ∨
      ∃ f7 sub f3, encodingOf t = .unary opFP f7 sub f3 := by
  cases t <;> first
    | exact absurd hfloat (by decide)
    | exact .inl ⟨_, rfl⟩
    | exact .inr (.inl ⟨_, rfl⟩)
    | exact .inr (.inr (.inl ⟨_, _, rfl⟩))
    | exact .inr (.inr (.inr (.inl ⟨_, _, rfl⟩)))
    | exact .inr (.inr (.inr (.inr (.inl ⟨_, rfl⟩))))
    | exact .inr (.inr (.inr (.inr (.inr (.inl ⟨_, _, rfl⟩)))))
    | exact .inr (.inr (.inr (.inr (.inr (.inr ⟨_, _, _, rfl⟩)))))

end FloatRows

section Decode
variable {instr : Instruction}

/-- A legal floating-point instruction is read back from its encoding. -/
theorem decodeInstruction_encode_float (hfloat : IsFloat instr.type) (hlegal : Legal instr)
    (hok : ¬Misdecoded instr) :
    ∃ r, decodeInstruction {} (encode instr) = .ok r ∧ SameOperands instr r := by
  have hmatch : (encodingOf instr.type).Matches (encode instr) := matches_assemble ..
  rcases float_row hfloat with hmem | hmem | ⟨op, fmt, henc⟩ | ⟨f3, f7, henc⟩ | ⟨f7, henc⟩ |
    ⟨f7, sub, henc⟩ | ⟨f7, sub, f3, henc⟩
  · exact ⟨instr, decode_memory hlegal (.inl hmem), sameOperands_self (.inl hmem)⟩
  · exact ⟨instr, decode_memory hlegal (.inr hmem), sameOperands_self (.inr hmem)⟩
  · rw [henc] at hmatch
    obtain ⟨hop, rfl⟩ := hmatch
    exact ⟨_, (dispatch_fused henc hop).trans (decodeFPFusedMultiplyAdd_row _ {} _ henc),
      sameOperands_fused hlegal henc⟩
  · rw [henc] at hmatch
    obtain ⟨hop, rfl, rfl⟩ := hmatch
    exact ⟨_, ((Dispatched.opFP hop).eq).trans (decodeOpFP_r _ {} _ henc),
      sameOperands_opFP hlegal (.inl ⟨_, _, henc⟩)⟩
  · rw [henc] at hmatch
    obtain ⟨hop, rfl⟩ := hmatch
    have hdiv : instr.type = .FDIVS ∨ instr.type = .FDIVD → rs2 (encode instr) ≠ 0 := by
      intro ht hzero
      refine hok (.inr (.inr (.inr ⟨ht, ?_⟩)))
      have hread : rs2 (encode instr) = instr.sourceRegister2.setWidth 5 := by
        rw [encode, henc]
        exact rs2_packR ..
      rw [← setWidth8_setWidth5 hlegal.2.2.1, ← hread, hzero]
      rfl
    exact ⟨_, ((Dispatched.opFP hop).eq).trans (decodeOpFP_rm _ {} _ henc hdiv),
      sameOperands_opFP hlegal (.inr (.inl ⟨_, henc⟩))⟩
  · rw [henc] at hmatch
    obtain ⟨hop, rfl, rfl⟩ := hmatch
    have hroot : instr.type ≠ .FSQRTS ∧ instr.type ≠ .FSQRTD :=
      ⟨fun ht => hok (.inl ht), fun ht => hok (.inr (.inl ht))⟩
    have hconvert : instr.type ≠ .FCVTDS := fun ht => hok (.inr (.inr (.inl ht)))
    exact ⟨_, ((Dispatched.opFP hop).eq).trans (decodeOpFP_unaryRm _ {} _ henc hroot hconvert),
      sameOperands_opFP hlegal (.inr (.inr (.inl ⟨_, _, henc⟩)))⟩
  · rw [henc] at hmatch
    obtain ⟨hop, rfl, rfl, rfl⟩ := hmatch
    exact ⟨_, ((Dispatched.opFP hop).eq).trans (decodeOpFP_unary _ {} _ henc),
      sameOperands_opFP hlegal (.inr (.inr (.inr ⟨_, _, _, henc⟩)))⟩

/-- The instructions of `Misdecoded` are rejected or decoded to another type. -/
theorem decodeInstruction_encode_misdecoded (hbad : Misdecoded instr) (r : Instruction)
    (hdecode : decodeInstruction {} (encode instr) = .ok r) : r.type ≠ instr.type := by
  have hmatch : (encodingOf instr.type).Matches (encode instr) := matches_assemble ..
  have hreject (ht : instr.type = .FSQRTS ∨ instr.type = .FSQRTD ∨ instr.type = .FCVTDS) :
      False := by
    have hrow : ∃ f7 sub, encodingOf instr.type = .unaryRm opFP f7 sub := by
      rcases ht with ht | ht | ht <;> rw [ht] <;> exact ⟨_, _, rfl⟩
    obtain ⟨f7, sub, henc⟩ := hrow
    rw [henc] at hmatch
    obtain ⟨hop, rfl, rfl⟩ := hmatch
    rw [(Dispatched.opFP hop).eq, decodeOpFP_rejects _ {} _ henc ht] at hdecode
    cases hdecode
  rcases hbad with ht | ht | ht | ⟨ht, hzero⟩
  · exact (hreject (.inl ht)).elim
  · exact (hreject (.inr (.inl ht))).elim
  · exact (hreject (.inr (.inr ht))).elim
  · have hrow : ∃ f7, encodingOf instr.type = .rm opFP f7 := by
      rcases ht with ht | ht <;> rw [ht] <;> exact ⟨_, rfl⟩
    obtain ⟨f7, henc⟩ := hrow
    have hread : rs2 (encode instr) = 0 := by
      rw [encode, henc]
      refine (rs2_packR ..).trans ?_
      rw [hzero]
      rfl
    rw [henc] at hmatch
    obtain ⟨hop, rfl⟩ := hmatch
    obtain ⟨s, hs, hroot⟩ := decodeOpFP_division (encode instr) {} instr.type henc ht hread
    rw [(Dispatched.opFP hop).eq, hs] at hdecode
    obtain rfl := Except.ok.inj hdecode
    rcases ht with ht | ht <;> rcases hroot with hroot | hroot <;> rw [ht, hroot] <;> decide

theorem decodeWord_encode_float_iff (hfloat : IsFloat instr.type) (hlegal : Legal instr) :
    (∃ r, decodeWord (encode instr) = .ok r ∧ SameOperands instr r) ↔ ¬Misdecoded instr := by
  have hmatch : (encodingOf instr.type).Matches (encode instr) := matches_assemble ..
  rw [decodeWord_of_low_bits (matches_low_bits hmatch)]
  constructor
  · rintro ⟨r, hdecode, hsame⟩ hbad
    exact decodeInstruction_encode_misdecoded hbad r hdecode hsame.1.symm
  · exact decodeInstruction_encode_float hfloat hlegal

end Decode

/-- A program of legal F and D instructions is read back exactly when it has no square
root, no FCVT.D.S and no division by f0. -/
theorem decodeInstructions_float_iff (native : Endian) (instrs : List Instruction)
    (hfloat : ∀ instr ∈ instrs, IsFloat instr.type) (hlegal : ∀ instr ∈ instrs, Legal instr) :
    (∃ decoded, decodeInstructions native (encodeProgram instrs) = .ok decoded ∧
      List.Forall₂ SameOperands instrs decoded) ↔
    ∀ instr ∈ instrs, ¬Misdecoded instr := by
  rw [encodeProgram, decodeInstructions_wordBytes]
  simp only [ExceptList.mapM_ok_iff, List.forall₂_map_left_iff]
  induction instrs with
  | nil => exact ⟨fun _ _ hmem => absurd hmem List.not_mem_nil, fun _ => ⟨[], .nil, .nil⟩⟩
  | cons instr instrs ih =>
    have hword := decodeWord_encode_float_iff (hfloat instr List.mem_cons_self)
      (hlegal instr List.mem_cons_self)
    have hrest := ih (fun i hi => hfloat i (List.mem_cons_of_mem _ hi))
      (fun i hi => hlegal i (List.mem_cons_of_mem _ hi))
    rw [List.forall_mem_cons, ← hword, ← hrest]
    constructor
    · rintro ⟨decoded, hdecode, hsame⟩
      cases hdecode with
      | cons hhead htail =>
        cases hsame with
        | cons hsame hsames => exact ⟨⟨_, hhead, hsame⟩, ⟨_, htail, hsames⟩⟩
    · rintro ⟨⟨r, hhead, hsame⟩, ⟨decoded, htail, hsames⟩⟩
      exact ⟨r :: decoded, .cons hhead htail, .cons hsame hsames⟩

/-- A division by f1 and a conversion to double. -/
theorem decodeInstructions_float_iff_division :
    (∃ decoded, decodeInstructions .little (encodeProgram
        [{ destinationRegister := 3, sourceRegister1 := 2, sourceRegister2 := 1, type := .FDIVS },
         { destinationRegister := 3, sourceRegister1 := 2, type := .FCVTDS }]) = .ok decoded ∧
      List.Forall₂ SameOperands
        [{ destinationRegister := 3, sourceRegister1 := 2, sourceRegister2 := 1, type := .FDIVS },
         { destinationRegister := 3, sourceRegister1 := 2, type := .FCVTDS }] decoded) ↔
    ∀ instr ∈ ([
        { destinationRegister := 3, sourceRegister1 := 2, sourceRegister2 := 1, type := .FDIVS },
        { destinationRegister := 3, sourceRegister1 := 2, type := .FCVTDS }] : List Instruction),
      ¬Misdecoded instr := by
  refine decodeInstructions_float_iff .little _ (by decide) ?_
  simp only [List.forall_mem_cons, List.not_mem_nil, false_implies, implies_true, and_true]
  refine ⟨⟨by decide, by decide, by decide, ?_⟩, ⟨by decide, by decide, by decide, ?_⟩⟩
  · exact .inl (by decide)
  · exact ⟨rfl, .inl (by decide)⟩

/-- FSQRT.S f3, f1 is rejected. -/
theorem decodeInstructions_fsqrt :
    ¬∀ (native : Endian) (instrs : List Instruction), (∀ instr ∈ instrs, IsFloat instr.type) →
      (∀ instr ∈ instrs, Legal instr) →
      ∃ decoded, decodeInstructions native (encodeProgram instrs) = .ok decoded ∧
        List.Forall₂ SameOperands instrs decoded := by
  intro h
  have hread := h .little [{ destinationRegister := 3, sourceRegister1 := 1, type := .FSQRTS }]
    (by decide) (by
      simp only [List.forall_mem_cons, List.not_mem_nil, false_implies, implies_true, and_true]
      exact ⟨by decide, by decide, by decide, rfl, .inl (by decide)⟩)
  obtain ⟨decoded, hdecode, -⟩ := hread
  cases hdecode

end RiscvEmulator.Guarantees
