import RiscvEmulator.Guarantees.FloatRoundTrip

/-!
# The second operand of a floating-point instruction

`decodeOpFP` reads rs2 as an operand of the two-source operations and as a sub-opcode of
the others. The two uses meet in one case of its switch: funct7 of FDIV is also the one it
compares FSQRT with, so a division by f0 is taken for a square root. Every other register
number leaves the operation alone.
-/
namespace RiscvEmulator.Guarantees
open Source Spec Library InstructionFormat WordBytes

variable {w : BitVec 32} {instr r : Instruction} {t : InstructionType}

/-- FADD to FDIV, the sign injections, the minima and maxima and the comparisons. -/
def twoSourceTypes : List InstructionType :=
  [.FADDS, .FSUBS, .FMULS, .FDIVS, .FSGNJS, .FSGNJNS, .FSGNJXS, .FMINS, .FMAXS, .FEQS, .FLTS,
    .FLES, .FADDD, .FSUBD, .FMULD, .FDIVD, .FSGNJD, .FSGNJND, .FSGNJXD, .FMIND, .FMAXD, .FEQD,
    .FLTD, .FLED]

/-- The word with bits 20..24 replaced. -/
def replaceRs2 (w : BitVec 32) (index : BitVec 5) : BitVec 32 :=
  packR (funct7 w) index (rs1 w) (funct3 w) (rd w) (opcode w)

section SubOpcodes

/-- funct7 from the two parts `decodeOpFP` reads of it. -/
theorem funct7_parts (f : BitVec 7) : f =
    if !hasBit (f.setWidth 8) 0 then (clearBit (f.setWidth 8) 0).setWidth 7
    else (clearBit (f.setWidth 8) 0).setWidth 7 ||| 1 := by
  revert f
  decide

/-- A case of the switch settles on the row of the word's own funct7. -/
theorem row_of_setType_pair {single double : InstructionType} {c : BitVec 8}
    (row : BitVec 7 → Encoding) (hc : clearBit (getFunct7 w) 0 = c)
    (hsingle : encodingOf single = row (c.setWidth 7))
    (hdouble : encodingOf double = row (c.setWidth 7 ||| 1))
    (h : setType instr (if !hasBit (getFunct7 w) 0 then single else double) = .ok r) :
    encodingOf r.type = row (funct7 w) := by
  have hparts := funct7_parts (funct7 w)
  rw [← getFunct7_eq, hc] at hparts
  rw [type_of_setType h, hparts]
  split
  · exact hsingle
  · exact hdouble

theorem not_twoSource_of_setType_pair {single double : InstructionType} {isSingle : Bool}
    (hsingle : single ∉ twoSourceTypes) (hdouble : double ∉ twoSourceTypes)
    (h : setType instr (if isSingle then single else double) = .ok r) :
    r.type ∉ twoSourceTypes := by
  rw [type_of_setType h]
  cases isSingle with
  | true => exact hsingle
  | false => exact hdouble

/-- funct7 of FDIV, single or double. -/
def IsDivision (w : BitVec 32) : Prop := (funct7 w).extractLsb' 1 6 = 0b000110

theorem clearBit_division (w : BitVec 32) :
    clearBit (getFunct7 w) 0 = 0b0001100#8 ↔ IsDivision w := by
  have hfields : ∀ f : BitVec 7,
      clearBit (f.setWidth 8) 0 = 0b0001100#8 ↔ f.extractLsb' 1 6 = 0b000110 := by decide
  rw [getFunct7_eq]
  exact hfields (funct7 w)

/-- The rows of the two-source operations; FDIV is left to FSQRT when rs2 is 0. -/
def TwoSourceRow (w : BitVec 32) (t : InstructionType) : Prop :=
  (encodingOf t = .r opFP (funct3 w) (funct7 w) ∧ ¬IsDivision w) ∨
    (encodingOf t = .rm opFP (funct7 w) ∧ (IsDivision w → rs2 w ≠ 0))

/-- A word decoded to a two-source operation carries the fixed bits of its row. -/
theorem decodeOpFP_twoSource (h : decodeOpFP w instr = .ok r) (htwo : r.type ∈ twoSourceTypes) :
    TwoSourceRow w r.type := by
  have other {single double : InstructionType} {i : Instruction}
      (hsingle : single ∉ twoSourceTypes) (hdouble : double ∉ twoSourceTypes)
      (hset : setType i (if !hasBit (getFunct7 w) 0 then single else double) = .ok r) :
      TwoSourceRow w r.type :=
    absurd htwo (not_twoSource_of_setType_pair hsingle hdouble hset)
  have undivided {c : BitVec 8} (hc : clearBit (getFunct7 w) 0 = c) (hne : c ≠ 0b0001100#8) :
      ¬IsDivision w := fun hdiv => hne (hc.symm.trans ((clearBit_division w).mpr hdiv))
  unfold decodeOpFP readFieldsR at h
  dsimp only at h
  split at h
  case h_1 hc | h_2 hc | h_3 hc =>
    exact .inr ⟨row_of_setType_pair (.rm opFP) hc rfl rfl h,
      fun hdiv => absurd hdiv (undivided hc (by decide))⟩
  case h_4 hc =>
    split at h
    · exact other (by decide) (by decide) h
    · next hne =>
      refine .inr ⟨row_of_setType_pair (.rm opFP) hc rfl rfl h, fun _ hzero => hne ?_⟩
      change getSourceRegister2 w = 0
      rw [getSourceRegister2_eq, hzero]
      rfl
  case h_5 hc | h_6 hc | h_10 hc =>
    rw [getFunct3_eq] at h
    split at h
    all_goals
      first
      | next h3 =>
        have h3 := eq_of_setWidth (by decide) h3
        refine .inl ⟨?_, undivided hc (by decide)⟩
        rw [h3]
        exact row_of_setType_pair (.r opFP _) hc rfl rfl h
      | cases h
  case h_13 => cases h
  all_goals
    split at h <;> first
    | exact other (by decide) (by decide) h
    | cases h

end SubOpcodes

section Operands

theorem twoSource_opcode (h : t ∈ twoSourceTypes) : (encodingOf t).fixedOpcode = opFP := by
  revert h
  cases t <;> decide

theorem division_type {f : BitVec 7} (h : encodingOf t = .rm opFP f) :
    f.extractLsb' 1 6 = 0b000110 ↔ t = .FDIVS ∨ t = .FDIVD := by
  cases t <;> cases h <;> decide

/-- The row's word is decoded to the row's type, with rs2 as an operand. -/
theorem decodeOpFP_of_row (hrow : TwoSourceRow w t) :
    decodeOpFP w instr = .ok { readFieldsRm w instr with type := t } := by
  rcases hrow with ⟨henc, -⟩ | ⟨henc, hne⟩
  · exact decodeOpFP_r w instr t henc
  · exact decodeOpFP_rm w instr t henc fun ht => hne ((division_type henc).mpr ht)

variable (index : BitVec 5)

@[simp] theorem opcode_replaceRs2 : opcode (replaceRs2 w index) = opcode w := opcode_packR ..
@[simp] theorem funct3_replaceRs2 : funct3 (replaceRs2 w index) = funct3 w := funct3_packR ..
@[simp] theorem funct7_replaceRs2 : funct7 (replaceRs2 w index) = funct7 w := funct7_packR ..
@[simp] theorem rs2_replaceRs2 : rs2 (replaceRs2 w index) = index := rs2_packR ..

theorem isDivision_replaceRs2 : IsDivision (replaceRs2 w index) ↔ IsDivision w := by
  simp [IsDivision]

/-- Only the second source of what the decoder reads changes. -/
theorem readFieldsRm_replaceRs2 :
    readFieldsRm (replaceRs2 w index) {} =
      { readFieldsRm w {} with sourceRegister2 := index.setWidth 8 } := by
  conv_rhs => rw [← packR_fields w]
  rw [replaceRs2, readFieldsRm_packR, readFieldsRm_packR]

theorem twoSourceRow_replaceRs2 (hrow : TwoSourceRow w t) (hok : ¬(IsDivision w ∧ index = 0)) :
    TwoSourceRow (replaceRs2 w index) t := by
  unfold TwoSourceRow
  rw [funct3_replaceRs2, funct7_replaceRs2, rs2_replaceRs2, isDivision_replaceRs2]
  rcases hrow with hrow | ⟨henc, -⟩
  · exact .inl hrow
  · exact .inr ⟨henc, fun hdiv hzero => hok ⟨hdiv, hzero⟩⟩

/-- A division with f0 for its second source is decoded to something else. -/
theorem decodeOpFP_replaceRs2_zero (hrow : TwoSourceRow w t) (hdiv : IsDivision w) :
    decodeOpFP (replaceRs2 w 0) {} ≠ .ok { readFieldsRm (replaceRs2 w 0) {} with type := t } := by
  rcases hrow with ⟨-, hne⟩ | ⟨henc, -⟩
  · exact absurd hdiv hne
  · have ht := (division_type henc).mp hdiv
    have henc' : encodingOf t = .rm opFP (funct7 (replaceRs2 w 0)) := by
      rw [funct7_replaceRs2]
      exact henc
    obtain ⟨r, hr, hroot⟩ := decodeOpFP_division (replaceRs2 w 0) {} t henc' ht (rs2_replaceRs2 0)
    intro h
    rw [hr] at h
    have htype : r.type = t := congrArg Instruction.type (Except.ok.inj h)
    rcases ht with rfl | rfl <;> rcases hroot with hroot | hroot <;>
      exact absurd (htype.symm.trans hroot) (by decide)

end Operands

/-- Replacing rs2 of a two-source operation changes that operand and nothing else, except
that a division is not kept when the new number is 0. -/
theorem decodeInstruction_replaceRs2_iff (w : BitVec 32) (instr : Instruction)
    (hdecode : decodeInstruction {} w = .ok instr) (htwo : instr.type ∈ twoSourceTypes)
    (index : BitVec 5) :
    decodeInstruction {} (replaceRs2 w index) =
        .ok { instr with sourceRegister2 := index.setWidth 8 } ↔
      ¬(IsDivision w ∧ index = 0) := by
  have hop : opcode w = opFP :=
    (decodeInstruction_opcode hdecode).symm.trans (twoSource_opcode htwo)
  have hop' : opcode (replaceRs2 w index) = opFP := (opcode_replaceRs2 index).trans hop
  rw [(Dispatched.opFP hop).eq] at hdecode
  have hrow := decodeOpFP_twoSource hdecode htwo
  have hinstr : instr = { readFieldsRm w {} with type := instr.type } :=
    Except.ok.inj (hdecode.symm.trans (decodeOpFP_of_row hrow))
  have hexpected : { instr with sourceRegister2 := index.setWidth 8 } =
      { readFieldsRm (replaceRs2 w index) {} with type := instr.type } := by
    rw [readFieldsRm_replaceRs2, hinstr]
  rw [(Dispatched.opFP hop').eq, hexpected]
  constructor
  · rintro h ⟨hdiv, rfl⟩
    exact decodeOpFP_replaceRs2_zero hrow hdiv h
  · intro hok
    exact decodeOpFP_of_row (twoSourceRow_replaceRs2 index hrow hok)

/-- FADD.S f1, f2, f3 with f0 for f3. -/
theorem decodeInstruction_replaceRs2_iff_add :
    decodeInstruction {} (replaceRs2 0x003100d3#32 0) =
        .ok { immediate := 0, destinationRegister := 1, sourceRegister1 := 2,
              sourceRegister2 := (0#5).setWidth 8, type := .FADDS } ↔
      ¬(IsDivision 0x003100d3#32 ∧ (0#5) = 0) :=
  decodeInstruction_replaceRs2_iff 0x003100d3#32
    { immediate := 0, destinationRegister := 1, sourceRegister1 := 2, sourceRegister2 := 3,
      type := .FADDS } rfl (by decide) 0

/-- FDIV.S f1, f2, f3 becomes FSQRT.S with f0 for f3. -/
theorem not_replaceRs2_division :
    ¬∀ (w : BitVec 32) (instr : Instruction), decodeInstruction {} w = .ok instr →
      instr.type ∈ twoSourceTypes → ∀ index : BitVec 5,
        decodeInstruction {} (replaceRs2 w index) =
          .ok { instr with sourceRegister2 := index.setWidth 8 } := by
  intro h
  have hread := h 0x183100d3#32
    { immediate := 0, destinationRegister := 1, sourceRegister1 := 2, sourceRegister2 := 3,
      type := .FDIVS } rfl (by decide) 0
  exact absurd hread (by decide)

end RiscvEmulator.Guarantees
