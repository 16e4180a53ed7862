import RiscvEmulator.Guarantees.CsrNumbers
import RiscvEmulator.Guarantees.DecodedFields
import RiscvEmulator.Guarantees.FloatOperands

/-!
# Which programs are recovered from the instructions decoded from them

Encoding a decoded instruction gives its word back unless something of the word was lost:
a fixed bit no sub-decoder looks at, the CSR number, which `decodeSystem` clears, or funct7
in the two cases of `decodeOpFP` that settle on a type of another row. `RecoverableWord`
says on the word that none of these happened.
-/
namespace RiscvEmulator.Guarantees
open Source Spec Library InstructionFormat WordBytes

variable {w : BitVec 32} {a b r : Instruction} {t : InstructionType}

section Operands

/-- The encoding depends on the operands of the row alone. -/
theorem encode_of_sameOperands (h : SameOperands a b) : encode a = encode b := by
  obtain ⟨htype, hsame⟩ := h
  rw [encode, encode, ← htype]
  cases hrow : encodingOf a.type with
  | r op f3 f7 =>
    rw [hrow] at hsame
    obtain ⟨hd, h1, h2⟩ := hsame
    simp only [Encoding.assemble, hd, h1, h2]
  | r4 op fmt =>
    rw [hrow] at hsame
    obtain ⟨hd, h1, h2, h3, hmode⟩ := hsame
    simp only [Encoding.assemble, hd, h1, h2, h3, hmode]
  | rm op f7 =>
    rw [hrow] at hsame
    obtain ⟨hd, h1, h2, hmode⟩ := hsame
    simp only [Encoding.assemble, hd, h1, h2, hmode]
  | unaryRm op f7 sub =>
    rw [hrow] at hsame
    obtain ⟨hd, h1, hmode⟩ := hsame
    simp only [Encoding.assemble, hd, h1, hmode]
  | unary op f7 sub f3 =>
    rw [hrow] at hsame
    obtain ⟨hd, h1⟩ := hsame
    simp only [Encoding.assemble, hd, h1]
  | i | s | b | u | j | shift | shiftW | fence | fixed | amo | lr =>
    rw [hrow] at hsame
    rw [hsame]

/-- What the decoder reads of a word of its R layout with a rounding mode. -/
theorem readFieldsRm_fields (w : BitVec 32) : readFieldsRm w {} =
    { immediate := (funct3 w).setWidth 32, destinationRegister := (rd w).setWidth 8,
      sourceRegister1 := (rs1 w).setWidth 8, sourceRegister2 := (rs2 w).setWidth 8 } := by
  conv_lhs => rw [← packR_fields w]
  exact readFieldsRm_packR ..

/-- The layouts of OP-FP, whose words are read by `readFieldsRm`. -/
def IsOpFPRow (t : InstructionType) : Prop :=
  (∃ f3 f7, encodingOf t = .r opFP f3 f7) ∨ (∃ f7, encodingOf t = .rm opFP f7) ∨
    (∃ f7 sub, encodingOf t = .unaryRm opFP f7 sub) ∨
    ∃ f7 sub f3, encodingOf t = .unary opFP f7 sub f3

theorem IsOpFPRow.opcode (h : IsOpFPRow t) : (encodingOf t).fixedOpcode = opFP := by
  rcases h with ⟨_, _, henc⟩ | ⟨_, henc⟩ | ⟨_, _, henc⟩ | ⟨_, _, _, henc⟩
  all_goals
    rw [henc]
    rfl

/-- An OP-FP word holds the operands read from it. -/
theorem sameOperands_readFieldsRm (hrow : IsOpFPRow t) :
    SameOperands { readFieldsRm w {} with type := t } ((encodingOf t).disassemble t w) := by
  refine ⟨(disassemble_type _ t w).symm, ?_⟩
  rw [readFieldsRm_fields]
  rcases hrow with ⟨f3, f7, henc⟩ | ⟨f7, henc⟩ | ⟨f7, sub, henc⟩ | ⟨f7, sub, f3, henc⟩
  all_goals
    rw [henc]
    simp [Encoding.disassemble, Instruction.roundingMode]

end Operands

section Rows

theorem encode_of_disassembled (hread : SameOperands r ((encodingOf r.type).disassemble r.type w))
    (hmatch : (encodingOf r.type).Matches w) : encode r = w :=
  calc encode r = encode ((encodingOf r.type).disassemble r.type w) := encode_of_sameOperands hread
    _ = (encodingOf r.type).assemble ((encodingOf r.type).disassemble r.type w) := by
      rw [encode, disassemble_type]
    _ = w := assemble_disassemble _ _ w hmatch

theorem encode_readFieldsI {f3 : BitVec 3} (henc : encodingOf r.type = .i opLoadFP f3)
    (hread : SettlesOn (readFieldsI w {}).1 r) (hmatch : (encodingOf r.type).Matches w) :
    encode r = w := by
  apply encode_of_disassembled _ hmatch
  have hword : { (readFieldsI w {}).1 with type := r.type } =
      (encodingOf r.type).disassemble r.type w := by
    rw [henc]
    simp only [readFieldsI, getDestinationRegister_eq, getSourceRegister1_eq, getImmediateI_eq,
      Encoding.disassemble]
  rw [← hword, ← hread]
  exact sameOperands_self (.inl ⟨_, henc⟩)

theorem encode_readFieldsS {f3 : BitVec 3} (henc : encodingOf r.type = .s opStoreFP f3)
    (hread : SettlesOn (readFieldsS w {}).1 r) (hmatch : (encodingOf r.type).Matches w) :
    encode r = w := by
  apply encode_of_disassembled _ hmatch
  have hword : { (readFieldsS w {}).1 with type := r.type } =
      (encodingOf r.type).disassemble r.type w := by
    rw [henc]
    simp only [readFieldsS, getSourceRegister1_eq, getSourceRegister2_eq, getImmediateS_eq,
      Encoding.disassemble]
  rw [← hword, ← hread]
  exact sameOperands_self (.inr ⟨_, henc⟩)

/-- The third source and the rounding mode share the union. -/
theorem encode_readFieldsR4 {op : BitVec 7} {fmt : BitVec 2}
    (henc : encodingOf r.type = .r4 op fmt)
    (hread : SettlesOn ((readFieldsRm w {}).setSourceRegister3 (getFunct7 w >>> 2)) r)
    (hmatch : (encodingOf r.type).Matches w) : encode r = w := by
  rw [henc] at hmatch
  obtain ⟨rfl, rfl⟩ := hmatch
  have hsource3 : r.sourceRegister3.setWidth 5 = (funct7 w).extractLsb' 2 5 := by
    have hset : r.sourceRegister3 = getFunct7 w >>> 2 := by
      rw [hread]
      exact sourceRegister3_set _ _
    rw [hset, getFunct7_eq, (amo_fields _).1, setWidth5_setWidth8]
  have hmode : r.roundingMode.setWidth 3 = funct3 w := by
    have hset : r.roundingMode = (readFieldsRm w {}).roundingMode := by
      rw [hread]
      exact BitVec.extractLsb'_append_eq_right
    rw [hset, readFieldsRm_fields]
    exact mode_of_setWidth (funct3 w)
  have hfields : r.destinationRegister = (rd w).setWidth 8 ∧
      r.sourceRegister1 = (rs1 w).setWidth 8 ∧ r.sourceRegister2 = (rs2 w).setWidth 8 := by
    rw [hread, readFieldsRm_fields]
    exact ⟨rfl, rfl, rfl⟩
  obtain ⟨hd, h1, h2⟩ := hfields
  rw [encode, henc]
  simp only [Encoding.assemble, hsource3, hmode, hd, h1, h2, setWidth5_setWidth8, funct7_joined,
    packR_fields]

theorem encode_readFieldsRm (hrow : IsOpFPRow r.type)
    (hread : SettlesOn (readFieldsRm w {}) r) (hmatch : (encodingOf r.type).Matches w) :
    encode r = w := by
  apply encode_of_disassembled _ hmatch
  have hsame := @sameOperands_readFieldsRm w r.type hrow
  rwa [← hread] at hsame

/-- An F or D word with the fixed bits of the type it is decoded to is the encoding of the
decoded instruction. -/
theorem encode_of_matches_float (hdecode : decodeInstruction {} w = .ok r)
    (hfloat : IsFloat r.type) (hmatch : (encodingOf r.type).Matches w) : encode r = w := by
  have hop : opcode w = (encodingOf r.type).fixedOpcode := (decodeInstruction_opcode hdecode).symm
  rcases float_row hfloat with ⟨f3, henc⟩ | ⟨f3, henc⟩ | ⟨op, fmt, henc⟩ | hrow
  · rw [henc] at hop
    rw [(Dispatched.loadFP hop).eq] at hdecode
    exact encode_readFieldsI henc ((outcome_decodeLoadFP _ _).settles hdecode) hmatch
  · rw [henc] at hop
    rw [(Dispatched.storeFP hop).eq] at hdecode
    exact encode_readFieldsS henc ((outcome_decodeStoreFP _ _).settles hdecode) hmatch
  · rw [henc] at hop
    rw [dispatch_fused henc hop] at hdecode
    exact encode_readFieldsR4 henc ((outcome_decodeFPFusedMultiplyAdd _ _ _).settles hdecode) hmatch
  · have hopFP := hop.trans (IsOpFPRow.opcode hrow)
    rw [(Dispatched.opFP hopFP).eq] at hdecode
    exact encode_readFieldsRm hrow ((outcome_decodeOpFP _ hopFP).settles hdecode) hmatch

end Rows

section Switch

/-- FMV and FCLASS, single or double, by the part of funct7 that `decodeOpFP` looks at. -/
def IsMove (w : BitVec 32) : Prop :=
  (funct7 w).extractLsb' 1 6 = 0b111000 ∨ (funct7 w).extractLsb' 1 6 = 0b111100

/-- The parts of funct7 whose case of the switch may lose something. -/
def lossyOperations : List (BitVec 6) := [0b000110, 0b010000, 0b111000, 0b111100]

theorem operation_of_clearBit {c : BitVec 8} (hc : clearBit (getFunct7 w) 0 = c) :
    (funct7 w).extractLsb' 1 6 = c.extractLsb' 1 6 := by
  have hfields : ∀ f : BitVec 7,
      f.extractLsb' 1 6 = (clearBit (f.setWidth 8) 0).extractLsb' 1 6 := by decide
  rw [hfields, ← getFunct7_eq, hc]

/-- What an accepted OP-FP word is: a word of its type's row, or one of the three cases in
which `decodeOpFP` looks at too little or settles on a type of another row. -/
inductive OpFPRow (w : BitVec 32) (t : InstructionType) : Prop where
  | checked (hmatch : (encodingOf t).Matches w) (hdivision : IsDivision w → rs2 w ≠ 0)
    (hconvert : funct7 w ≠ 0b0100001) (hmove : ¬IsMove w)
  | root (hdivision : IsDivision w) (h2 : rs2 w = 0) (ht : t = .FSQRTS ∨ t = .FSQRTD)
  | convert (h7 : funct7 w = 0b0100001) (h2 : rs2 w = 1) (ht : t = .FCVTDS)
  | move (hmove : IsMove w) (henc : encodingOf t = .unary opFP (funct7 w) 0 (funct3 w))

theorem OpFPRow.of_operation {c : BitVec 8} (hc : clearBit (getFunct7 w) 0 = c)
    (hcheck : c.extractLsb' 1 6 ∉ lossyOperations) (hmatch : (encodingOf t).Matches w) :
    OpFPRow w t := by
  rw [← operation_of_clearBit hc] at hcheck
  simp only [lossyOperations, List.mem_cons, List.not_mem_nil, or_false, not_or] at hcheck
  obtain ⟨hdivision, hconvert, hmove, hmove'⟩ := hcheck
  refine .checked hmatch (fun h => absurd h hdivision) ?_ ?_
  · intro h7
    exact hconvert (by rw [h7]; rfl)
  · rintro (h | h)
    · exact hmove h
    · exact hmove' h

/-- FCVT.S.D and FCVT.D.S, which `decodeOpFP` accepts for rs2 = 1 only. -/
theorem convert_row (hop : opcode w = opFP) (hc : clearBit (getFunct7 w) 0 = 0b0100000#8)
    (h2 : rs2 w = 1)
    (h : setType a (if !hasBit (getFunct7 w) 0 then .FCVTSD else .FCVTDS) = .ok r) :
    OpFPRow w r.type := by
  have hparts := funct7_parts (funct7 w)
  rw [← getFunct7_eq, hc] at hparts
  rw [type_of_setType h]
  split at hparts
  next hsingle =>
    rw [if_pos hsingle]
    refine .checked ⟨hop, hparts, h2⟩ ?_ ?_ ?_
    · intro hdivision
      rw [IsDivision, hparts] at hdivision
      exact absurd hdivision (by decide)
    · rw [hparts]
      decide
    · rw [IsMove, hparts]
      decide
  next hdouble =>
    rw [if_neg hdouble]
    exact .convert hparts h2 rfl

theorem decodeOpFP_row (hop : opcode w = opFP) (h : decodeOpFP w a = .ok r) :
    OpFPRow w r.type := by
  unfold decodeOpFP readFieldsR Instruction.setRoundingMode at h
  simp only [getFunct3_eq, getSourceRegister2_eq] at h
  split at h
  case h_1 hc | h_2 hc | h_3 hc =>
    refine .of_operation hc (by decide) ?_
    rw [row_of_setType_pair (.rm opFP) hc rfl rfl h]
    exact ⟨hop, rfl⟩
  case h_4 hc =>
    have hdivision : IsDivision w := operation_of_clearBit hc
    split at h
    next h2 =>
      refine .root hdivision (eq_of_setWidth (by decide) h2) ?_
      rw [type_of_setType h]
      split
      · exact .inl rfl
      · exact .inr rfl
    next hne =>
      refine .checked ?_ (fun _ h2 => hne (by rw [h2]; rfl)) ?_ ?_
      · rw [row_of_setType_pair (.rm opFP) hc rfl rfl h]
        exact ⟨hop, rfl⟩
      · intro h7
        rw [IsDivision, h7] at hdivision
        exact absurd hdivision (by decide)
      · rintro (hmove | hmove) <;> exact absurd (hdivision.symm.trans hmove) (by decide)
  case h_5 hc | h_6 hc | h_10 hc =>
    split at h
    all_goals
      first
      | next h3 =>
        refine .of_operation hc (by decide) ?_
        rw [row_of_setType_pair (.r opFP _) hc rfl rfl h]
        exact ⟨hop, eq_of_setWidth (by decide) h3, rfl⟩
      | cases h
  case h_7 hc =>
    split at h
    next h2 => exact convert_row hop hc (eq_of_setWidth (by decide) h2) h
    next => cases h
  case h_8 hc | h_11 hc =>
    split at h
    all_goals
      first
      | next h2 =>
        refine .of_operation hc (by decide) ?_
        rw [row_of_setType_pair (fun f7 => .unaryRm opFP f7 _) hc rfl rfl h]
        exact ⟨hop, rfl, eq_of_setWidth (by decide) h2⟩
      | cases h
  case h_9 hc =>
    have hmove : IsMove w := .inl (operation_of_clearBit hc)
    split at h
    all_goals
      first
      | next h3 =>
        refine .move hmove ?_
        rw [eq_of_setWidth (by decide) h3]
        exact row_of_setType_pair (fun f7 => .unary opFP f7 0 _) hc rfl rfl h
      | cases h
  case h_12 hc =>
    have hmove : IsMove w := .inr (operation_of_clearBit hc)
    split at h
    next h3 =>
      refine .move hmove ?_
      rw [eq_of_setWidth (by decide) h3]
      exact row_of_setType_pair (fun f7 => .unary opFP f7 0 _) hc rfl rfl h
    next => cases h
  case h_13 => cases h

end Switch

/-- Nothing of the word is lost in its decoding. -/
structure RecoverableWord (w : BitVec 32) : Prop where
  checked : CanonicalWord w
  csr : opcode w = opSystem → funct3 w ≠ 0b000 → csrNumber w = 0
  division : opcode w = opFP → IsDivision w → rs2 w ≠ 0
  convert : opcode w = opFP → funct7 w ≠ 0b0100001
  move : opcode w = opFP → IsMove w → rs2 w = 0

section Words

theorem recoverableWord_opFP (hop : opcode w = opFP) : RecoverableWord w ↔
    (IsDivision w → rs2 w ≠ 0) ∧ funct7 w ≠ 0b0100001 ∧ (IsMove w → rs2 w = 0) := by
  constructor
  · exact fun h => ⟨h.division hop, h.convert hop, h.move hop⟩
  · rintro ⟨hdivision, hconvert, hmove⟩
    refine ⟨?_, ?_, fun _ => hdivision, fun _ => hconvert, fun _ => hmove⟩
    · apply canonicalWord_of_checked
      rw [hop]
      decide
    · intro hsystem
      exact absurd (hop.symm.trans hsystem) (by decide)

theorem recoverableWord_of_ne (hne : opcode w ≠ opFP) : RecoverableWord w ↔
    CanonicalWord w ∧ (opcode w = opSystem → funct3 w ≠ 0b000 → csrNumber w = 0) := by
  constructor
  · exact fun h => ⟨h.checked, h.csr⟩
  · rintro ⟨hchecked, hcsr⟩
    exact ⟨hchecked, hcsr, fun h => absurd h hne, fun h => absurd h hne, fun h => absurd h hne⟩

/-- The other words of F and D are read whole. -/
theorem recoverableWord_float (hmem : opcode w ∈ floatOpcodes) (hne : opcode w ≠ opFP) :
    RecoverableWord w := by
  have hother : ∀ op ∈ floatOpcodes, op ∉ uncheckedOpcodes ∧ op ≠ opSystem := by decide
  obtain ⟨hchecked, hsystem⟩ := hother _ hmem
  exact (recoverableWord_of_ne hne).mpr
    ⟨canonicalWord_of_checked hchecked, fun h => absurd h hsystem⟩

theorem OpFPRow.matches_iff (hop : opcode w = opFP) (h : OpFPRow w t) :
    (encodingOf t).Matches w ↔ RecoverableWord w := by
  rw [recoverableWord_opFP hop]
  cases h with
  | checked hmatch hdivision hconvert hmove =>
    exact ⟨fun _ => ⟨hdivision, hconvert, fun h => absurd h hmove⟩, fun _ => hmatch⟩
  | root hdivision h2 ht =>
    constructor
    · intro hmatch
      rw [IsDivision] at hdivision
      rcases ht with rfl | rfl <;> exact absurd (hmatch.2.1 ▸ hdivision) (by decide)
    · rintro ⟨hne, -⟩
      exact absurd h2 (hne hdivision)
  | convert h7 h2 ht =>
    constructor
    · intro hmatch
      rw [ht] at hmatch
      exact absurd (h2.symm.trans hmatch.2.2) (by decide)
    · rintro ⟨-, hne, -⟩
      exact absurd h7 hne
  | move hmove henc =>
    rw [henc]
    constructor
    · rintro ⟨-, -, h2, -⟩
      refine ⟨?_, ?_, fun _ => h2⟩
      · intro hdivision
        rcases hmove with hmove | hmove <;>
          exact absurd (hdivision.symm.trans hmove) (by decide)
      · intro h7
        rw [IsMove, h7] at hmove
        exact absurd hmove (by decide)
    · rintro ⟨-, -, h2⟩
      exact ⟨hop, rfl, h2 hmove, rfl⟩

theorem decodeLoadFP_encoding (h : decodeLoadFP w a = .ok r) :
    encodingOf r.type = .i opLoadFP (funct3 w) := by
  unfold decodeLoadFP readFieldsI at h
  simp only [getFunct3_eq] at h
  split at h
  case h_3 => cases h
  all_goals
    next h3 =>
    rw [type_of_setType h, eq_of_setWidth (by decide) h3]
    rfl

theorem decodeStoreFP_encoding (h : decodeStoreFP w a = .ok r) :
    encodingOf r.type = .s opStoreFP (funct3 w) := by
  unfold decodeStoreFP readFieldsS at h
  simp only [getFunct3_eq] at h
  split at h
  case h_3 => cases h
  all_goals
    next h3 =>
    rw [type_of_setType h, eq_of_setWidth (by decide) h3]
    rfl

theorem decodeFPFusedMultiplyAdd_encoding {op : BitVec 7} (hop : op ∈ fusedOpcodes)
    (h : decodeFPFusedMultiplyAdd w (fusedOpcode op) a = .ok r) :
    encodingOf r.type = .r4 op ((funct7 w).extractLsb' 0 2) := by
  simp only [fusedOpcodes, List.mem_cons, List.not_mem_nil, or_false] at hop
  unfold decodeFPFusedMultiplyAdd readFieldsR at h
  simp only [getFunct7_eq, funct2_eq] at h
  split at h
  case h_3 => cases h
  all_goals
    next h2 =>
    rw [eq_of_setWidth (by decide) h2]
    rcases hop with rfl | rfl | rfl | rfl <;>
      rw [type_of_setType h] <;> rfl

/-- A CSR word is a word of its type's row. -/
theorem decodeSystem_encoding (h : decodeSystem w a = .ok r) (hcsr : extensionOf r.type = .zicsr) :
    encodingOf r.type = .i opSystem (funct3 w) := by
  unfold decodeSystem readFieldsI at h
  simp only [getFunct3_eq] at h
  split at h
  case h_1 =>
    split at h
    case h_3 => cases h
    all_goals
      rw [type_of_setType h] at hcsr
      cases hcsr
  case h_8 => cases h
  all_goals
    next h3 =>
    rw [type_of_setType h, eq_of_setWidth (by decide) h3]
    rfl

end Words

section Recovery

theorem matches_iff_recoverable_float (hdecode : decodeInstruction {} w = .ok r)
    (hfloat : IsFloat r.type) : (encodingOf r.type).Matches w ↔ RecoverableWord w := by
  have hop : opcode w = (encodingOf r.type).fixedOpcode := (decodeInstruction_opcode hdecode).symm
  by_cases hopFP : opcode w = opFP
  · rw [(Dispatched.opFP hopFP).eq] at hdecode
    exact (decodeOpFP_row hopFP hdecode).matches_iff hopFP
  · -- outside OP-FP every fixed bit is checked
    have whole (hmem : opcode w ∈ floatOpcodes) (hmatch : (encodingOf r.type).Matches w) :
        (encodingOf r.type).Matches w ↔ RecoverableWord w :=
      ⟨fun _ => recoverableWord_float hmem hopFP, fun _ => hmatch⟩
    rcases float_row hfloat with ⟨f3, henc⟩ | ⟨f3, henc⟩ | ⟨op, fmt, henc⟩ | hrow
    · rw [henc] at hop
      have hload : opcode w = opLoadFP := hop
      rw [(Dispatched.loadFP hload).eq] at hdecode
      refine whole (by rw [hload]; decide) ?_
      rw [decodeLoadFP_encoding hdecode]
      exact ⟨hload, rfl⟩
    · rw [henc] at hop
      have hstore : opcode w = opStoreFP := hop
      rw [(Dispatched.storeFP hstore).eq] at hdecode
      refine whole (by rw [hstore]; decide) ?_
      rw [decodeStoreFP_encoding hdecode]
      exact ⟨hstore, rfl⟩
    · rw [henc] at hop
      have hfused : op ∈ fusedOpcodes ∧ op ∈ floatOpcodes := by
        generalize r.type = t at henc
        cases t <;> cases henc <;> decide
      rw [dispatch_fused henc hop] at hdecode
      refine whole (hop ▸ hfused.2) ?_
      rw [decodeFPFusedMultiplyAdd_encoding hfused.1 hdecode]
      exact ⟨hop, rfl⟩
    · exact absurd (hop.trans (IsOpFPRow.opcode hrow)) hopFP

theorem encode_eq_iff_float (hdecode : decodeInstruction {} w = .ok r)
    (hfloat : IsFloat r.type) : encode r = w ↔ RecoverableWord w := by
  rw [← matches_iff_recoverable_float hdecode hfloat]
  constructor
  · intro heq
    have hmatch : (encodingOf r.type).Matches (encode r) := matches_assemble ..
    rwa [heq] at hmatch
  · exact encode_of_matches_float hdecode hfloat

/-- A CSR instruction is encoded with CSR number 0. -/
theorem encode_csr (hdecode : decodeSystem w {} = .ok r) (hcsr : extensionOf r.type = .zicsr) :
    encode r = packI 0 (rs1 w) (funct3 w) (rd w) opSystem := by
  have henc := decodeSystem_encoding hdecode hcsr
  have hfields : r.immediate = 0 ∧ r.destinationRegister = (rd w).setWidth 8 ∧
      r.sourceRegister1 = (rs1 w).setWidth 8 := by
    rw [(outcome_decodeSystem _ _).settles hdecode]
    simp only [readFieldsI, getDestinationRegister_eq, getSourceRegister1_eq, and_self]
  obtain ⟨himm, hd, h1⟩ := hfields
  rw [encode, henc]
  simp [Encoding.assemble, himm, hd, h1]

theorem encode_eq_iff_csr (hdecode : decodeInstruction {} w = .ok r)
    (hcsr : extensionOf r.type = .zicsr) : encode r = w ↔ RecoverableWord w := by
  have hop : opcode w = opSystem :=
    (decodeInstruction_opcode hdecode).symm.trans (opcode_of_zicsr hcsr)
  rw [(Dispatched.system hop).eq] at hdecode
  have henc := decodeSystem_encoding hdecode hcsr
  have h3 : funct3 w ≠ 0b000 := by
    intro h3
    rw [h3] at henc
    generalize r.type = t at henc hcsr
    cases t <;> cases hcsr <;> cases henc
  have hchecked : CanonicalWord w :=
    (canonicalWord_system hop).mpr fun h => absurd h h3
  have hne : opcode w ≠ opFP := by
    rw [hop]
    decide
  rw [recoverableWord_of_ne hne, encode_csr hdecode hcsr]
  constructor
  · intro heq
    refine ⟨hchecked, fun _ _ => ?_⟩
    rw [csrNumber, ← heq, immI_packI]
  · rintro ⟨-, hzero⟩
    have hfields := packI_fields w
    rwa [hop, ← csrNumber, hzero hop h3] at hfields

theorem encode_eq_iff_integer (hdecode : decodeInstruction {} w = .ok r)
    (hint : IsInteger r.type) : encode r = w ↔ RecoverableWord w := by
  rw [encode_eq_iff_canonicalWord hdecode hint]
  have hop := decodeInstruction_opcode hdecode
  have hne : opcode w ≠ opFP := by
    intro hopFP
    refine hint.2 (float_of_opcode ?_)
    rw [hop, hopFP]
    decide
  have hcsr : opcode w = opSystem → funct3 w ≠ 0b000 → csrNumber w = 0 := by
    intro hsystem h3
    rw [(Dispatched.system hsystem).eq] at hdecode
    rcases decodeSystem_ok hdecode with ⟨hzero, -⟩ | ⟨hzero, -⟩ | hzicsr
    · exact absurd hzero h3
    · exact absurd hzero h3
    · exact absurd hzicsr hint.1
  rw [recoverableWord_of_ne hne]
  exact (and_iff_left hcsr).symm

/-- Encoding what an accepted word is decoded to gives the word back exactly when nothing of
it was lost. -/
theorem encode_eq_iff_recoverable (hdecode : decodeInstruction {} w = .ok r) :
    encode r = w ↔ RecoverableWord w := by
  by_cases hfloat : IsFloat r.type
  · exact encode_eq_iff_float hdecode hfloat
  · by_cases hcsr : extensionOf r.type = .zicsr
    · exact encode_eq_iff_csr hdecode hcsr
    · exact encode_eq_iff_integer hdecode ⟨hcsr, hfloat⟩

theorem encodeProgram_eq_iff (program : List Byte) (instrs : List Instruction)
    (hlen : program.length % 4 = 0) :
    encodeProgram instrs = program ↔ instrs.map encode = words program := by
  constructor
  · intro h
    rw [← h, encodeProgram, words_flatMap]
  · intro h
    rw [encodeProgram, h]
    exact flatMap_words hlen

end Recovery

/-- The bytes of an accepted program are those of its instructions' encodings exactly when
no word of it lost anything. -/
theorem encodeProgram_decoded_iff (native : Endian) (program : List Byte)
    (instrs : List Instruction) (haccept : decodeInstructions native program = .ok instrs) :
    encodeProgram instrs = program ↔ ∀ w ∈ words program, RecoverableWord w := by
  obtain ⟨hlen, hall⟩ := (decodeInstructions_ok_iff native program instrs).mp haccept
  rw [encodeProgram_eq_iff program instrs hlen]
  clear haccept
  generalize words program = ws at hall
  -- induction on the words, each with the instruction it is decoded to
  induction hall with
  | nil => simp
  | cons hword hrest ih =>
    have hdecode := (decodeWord_ok_low_bits hword).2
    rw [List.map_cons, List.cons.injEq, List.forall_mem_cons, ih,
      encode_eq_iff_recoverable hdecode]

/-- FDIV.S f3, f2, f1 and CSRRW x1, 0, x2. -/
theorem encodeProgram_decoded_iff_csr :
    encodeProgram
        [{ destinationRegister := 3, sourceRegister1 := 2, sourceRegister2 := 1, type := .FDIVS },
         { destinationRegister := 1, sourceRegister1 := 2, type := .CSRRW }] =
        wordBytes 0x181101d3#32 ++ wordBytes 0x000110f3#32 ↔
      ∀ w ∈ words (wordBytes 0x181101d3#32 ++ wordBytes 0x000110f3#32), RecoverableWord w :=
  encodeProgram_decoded_iff .little (wordBytes 0x181101d3#32 ++ wordBytes 0x000110f3#32)
    [{ destinationRegister := 3, sourceRegister1 := 2, sourceRegister2 := 1, type := .FDIVS },
     { destinationRegister := 1, sourceRegister1 := 2, type := .CSRRW }] rfl

end RiscvEmulator.Guarantees
