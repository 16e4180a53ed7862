import RiscvEmulator.Library.SignedResidue
import RiscvEmulator.Spec.Encoding

/-!
# The encodings invert each other, row by row

Facts about the encodings alone, one case per operand layout. An assembled word
carries the fixed bits of its row (`matches_assemble`), an instruction with legal
operands is read back from it (`disassemble_assemble`), and a word of a row is the
assembly of what is read from it (`assemble_disassemble`).
-/
namespace RiscvEmulator.Spec
open Source Library InstructionFormat

theorem setWidth_roundtrip {m n : Nat} (x : BitVec m) (hx : x.toNat < 2 ^ n) :
    (x.setWidth n).setWidth m = x := by
  apply BitVec.eq_of_toNat_eq
  rw [BitVec.toNat_setWidth, BitVec.toNat_setWidth, Nat.mod_eq_of_lt hx, Nat.mod_eq_of_lt x.isLt]

@[simp] theorem setWidth5_setWidth8 (x : BitVec 5) : (x.setWidth 8).setWidth 5 = x := by
  rw [BitVec.setWidth_setWidth_of_le _ (by decide), BitVec.setWidth_eq]

/-- A value in the range of `n + 1` signed bits is the sign extension of those bits. -/
theorem signExtend_roundtrip {n : Nat} (x : BitVec 32) (hn : n < 32)
    (lo : -2 ^ n ≤ x.toInt) (hi : x.toInt < 2 ^ n) :
    (x.setWidth (n + 1)).signExtend 32 = x := by
  have hdvd : (2 : Int) ^ (n + 1) ∣ 2 ^ 32 := pow_dvd_pow 2 (by omega)
  have hword : SignedResidue 31 x.toNat x.toInt := SignedResidue.toInt x
  have hrange : SignedResidue n x.toNat x.toInt := ⟨lo, hi, hword.congruent.of_dvd hdvd⟩
  apply BitVec.eq_of_toInt_eq
  rw [BitVec.toInt_signExtend_of_le (by omega)]
  exact hrange.unique (SignedResidue.toInt_setWidth x)

/-- An even offset is its bits above bit 0 with the zero bit put back. -/
theorem append_zero_roundtrip {n : Nat} (x : BitVec 32)
    (heven : x.toInt % 2 = 0) :
    x.extractLsb' 1 n ++ 0#1 = x.setWidth (n + 1) := by
  have hmod : x.toNat % 2 = 0 := by
    rw [BitVec.toInt_eq_toNat_cond] at heven
    split at heven <;> omega
  apply BitVec.eq_of_getLsbD_eq
  intro i hi
  rw [BitVec.getLsbD_append, BitVec.getLsbD_setWidth]
  cases i with
  | zero => simp [BitVec.getLsbD, Nat.testBit_zero, hmod]
  | succ i =>
    have hin : i < n := by omega
    simp [hin, Nat.add_comm 1 i]

/-- Conversely, dropping the zero bit of a sign-extended offset gives the offset back. -/
theorem extractLsb'_signExtend_append_zero {n : Nat} (x : BitVec n) (hn : n < 32) :
    ((x ++ 0#1).signExtend 32).extractLsb' 1 n = x := by
  apply BitVec.eq_of_getLsbD_eq
  intro i hi
  have h32 : 1 + i < 32 := by omega
  have hin : 1 + i < n + 1 := by omega
  rw [BitVec.getLsbD_extractLsb', BitVec.getLsbD_signExtend, BitVec.getLsbD_append]
  simp [hi, h32, hin]

theorem setWidth_signExtend {n : Nat} (x : BitVec n) (hn : n ≤ 32) :
    (x.signExtend 32).setWidth n = x := by
  apply BitVec.eq_of_getLsbD_eq
  intro i hi
  have h32 : i < 32 := by omega
  rw [BitVec.getLsbD_setWidth, BitVec.getLsbD_signExtend]
  simp [hi, h32]

theorem setWidth_setWidth_cancel {m n : Nat} (x : BitVec n) (hn : n ≤ m) :
    (x.setWidth m).setWidth n = x := by
  rw [BitVec.setWidth_setWidth_of_le _ hn, BitVec.setWidth_eq]

theorem funct7_joined (w : BitVec 32) :
    (funct7 w).extractLsb' 2 5 ++ (funct7 w).extractLsb' 0 2 = funct7 w :=
  @split_joined 5 2 (funct7 w)

theorem shamt_joined (w : BitVec 32) :
    (immI w).extractLsb' 6 6 ++ (immI w).extractLsb' 0 6 = immI w :=
  @split_joined 6 6 (immI w)

@[simp] theorem funct7_packI (imm : BitVec 12) (s1 : BitVec 5) (f3 : BitVec 3) (d : BitVec 5)
    (op : BitVec 7) : funct7 (packI imm s1 f3 d op) = imm.extractLsb' 5 7 := by
  simp [packI]

/-- The assembled word carries the fixed bits of its row. -/
theorem matches_assemble (encoding : Encoding) (instr : Instruction) :
    encoding.Matches (encoding.assemble instr) := by
  cases encoding with
  | shift op f3 f6 =>
    refine ⟨opcode_packI .., funct3_packI .., ?_⟩
    rw [Encoding.assemble, immI_packI]
    exact BitVec.extractLsb'_append_eq_left
  | shiftW op f3 f7 =>
    refine ⟨opcode_packI .., funct3_packI .., ?_⟩
    rw [Encoding.assemble, funct7_packI]
    exact BitVec.extractLsb'_append_eq_left
  | amo op f3 f5 =>
    refine ⟨opcode_packR .., funct3_packR .., ?_⟩
    rw [Encoding.assemble, funct7_packR]
    exact BitVec.extractLsb'_append_eq_left
  | lr op f3 f5 =>
    refine ⟨opcode_packR .., funct3_packR .., ?_, rs2_packR ..⟩
    rw [Encoding.assemble, funct7_packR]
    exact BitVec.extractLsb'_append_eq_left
  | r4 op fmt =>
    refine ⟨opcode_packR .., ?_⟩
    rw [Encoding.assemble, funct7_packR]
    exact BitVec.extractLsb'_append_eq_right
  | r | i | s | b | u | j | fence | fixed | rm | unaryRm | unary =>
    simp [Encoding.Matches, Encoding.assemble]

theorem mode_of_setWidth (f : BitVec 3) : ((f.setWidth 32).extractLsb' 0 8).setWidth 3 = f := by
  revert f
  decide

/-- The union holds a rounding mode in its first byte and a third source in its second. -/
theorem mode_of_pair (mode : BitVec 3) (source : BitVec 5) :
    ((mode.setWidth 32 ||| source.setWidth 32 <<< 8).extractLsb' 0 8).setWidth 3 = mode := by
  apply BitVec.eq_of_getLsbD_eq
  intro i hi
  simp only [BitVec.getLsbD_setWidth, BitVec.getLsbD_extractLsb', BitVec.getLsbD_or,
    BitVec.getLsbD_shiftLeft]
  interval_cases i <;> simp

theorem source3_of_pair (mode : BitVec 3) (source : BitVec 5) :
    ((mode.setWidth 32 ||| source.setWidth 32 <<< 8).extractLsb' 8 8).setWidth 5 = source := by
  apply BitVec.eq_of_getLsbD_eq
  intro i hi
  simp only [BitVec.getLsbD_setWidth, BitVec.getLsbD_extractLsb', BitVec.getLsbD_or,
    BitVec.getLsbD_shiftLeft]
  interval_cases i <;> simp

/-- The rows whose operands are read from the floating-point union. -/
def Encoding.usesFloatOp : Encoding → Bool
  | .r4 .. | .rm .. | .unaryRm .. | .unary .. => true
  | _ => false

theorem IsInteger.usesFloatOp {type : InstructionType} (hint : IsInteger type) :
    (encodingOf type).usesFloatOp = false := by
  cases type <;> first | rfl | exact absurd rfl hint.2

/-- An instruction with legal operands, none of them in the floating-point union, is read
back from its encoding. -/
theorem disassemble_assemble (instr : Instruction)
    (hrow : (encodingOf instr.type).usesFloatOp = false) (hlegal : Legal instr) :
    (encodingOf instr.type).disassemble instr.type (encode instr) = instr := by
  obtain ⟨imm, rd, rs1, rs2, type⟩ := instr
  obtain ⟨hrd, hrs1, hrs2, hlegal⟩ := hlegal
  replace hrd := setWidth_roundtrip (n := 5) rd hrd
  replace hrs1 := setWidth_roundtrip (n := 5) rs1 hrs1
  replace hrs2 := setWidth_roundtrip (n := 5) rs2 hrs2
  simp only [encode] at *
  generalize encodingOf type = e at hlegal hrow ⊢
  cases e with
  | r op f3 f7 =>
    simp only [Encoding.disassemble, Encoding.assemble, rd_packR, rs1_packR, rs2_packR, hrd, hrs1,
      hrs2, hlegal]
  | i op f3 =>
    obtain ⟨rfl, lo, hi⟩ := hlegal
    have himm := signExtend_roundtrip (n := 11) imm (by decide) lo hi
    simp only [Encoding.disassemble, Encoding.assemble, rd_packI, rs1_packI, immI_packI, hrd, hrs1,
      himm]
  | s op f3 =>
    obtain ⟨rfl, lo, hi⟩ := hlegal
    have himm := signExtend_roundtrip (n := 11) imm (by decide) lo hi
    simp only [Encoding.disassemble, Encoding.assemble, rs2_packS, rs1_packS, immS_packS, hrs2,
      hrs1, himm]
  | b op f3 =>
    obtain ⟨rfl, lo, hi, heven⟩ := hlegal
    have hbits := append_zero_roundtrip (n := 12) imm heven
    have himm := signExtend_roundtrip (n := 12) imm (by decide) lo hi
    simp only [Encoding.disassemble, Encoding.assemble, rs2_packB, rs1_packB, immB_packB, hrs2,
      hrs1, hbits, himm]
  | u op =>
    obtain ⟨rfl, rfl, hlow⟩ := hlegal
    have himm : imm.extractLsb' 12 20 ++ 0#12 = imm := by
      apply BitVec.eq_of_toNat_eq
      have hlt := imm.isLt
      rw [BitVec.toNat_append, BitVec.extractLsb'_toNat, BitVec.toNat_ofNat, Nat.zero_mod,
        Nat.or_zero, Nat.shiftLeft_eq, Nat.shiftRight_eq_div_pow]
      omega
    simp only [Encoding.disassemble, Encoding.assemble, rd_packU, immU_packU, hrd, himm]
  | j op =>
    obtain ⟨rfl, rfl, lo, hi, heven⟩ := hlegal
    have hbits := append_zero_roundtrip (n := 20) imm heven
    have himm := signExtend_roundtrip (n := 20) imm (by decide) lo hi
    simp only [Encoding.disassemble, Encoding.assemble, rd_packJ, immJ_packJ, hrd, hbits, himm]
  | shift op f3 f6 =>
    obtain ⟨rfl, himm⟩ := hlegal
    replace himm := setWidth_roundtrip (n := 6) imm himm
    have hlow : (f6 ++ imm.setWidth 6).extractLsb' 0 6 = imm.setWidth 6 :=
      BitVec.extractLsb'_append_eq_right
    simp only [Encoding.disassemble, Encoding.assemble, rd_packI, rs1_packI, immI_packI, hrd, hrs1,
      hlow, himm]
  | shiftW op f3 f7 =>
    obtain ⟨rfl, himm⟩ := hlegal
    replace himm := setWidth_roundtrip (n := 5) imm himm
    have hlow : (f7 ++ imm.setWidth 5).extractLsb' 0 5 = imm.setWidth 5 :=
      BitVec.extractLsb'_append_eq_right
    simp only [Encoding.disassemble, Encoding.assemble, rd_packI, rs1_packI, immI_packI, hrd, hrs1,
      hlow, himm]
  | fence op f3 =>
    obtain ⟨rfl, himm⟩ := hlegal
    replace himm := setWidth_roundtrip (n := 12) imm himm
    simp only [Encoding.disassemble, Encoding.assemble, rd_packI, rs1_packI, immI_packI, hrd, hrs1,
      himm]
  | fixed op f3 fixedImm =>
    obtain ⟨rfl, rfl, rfl, himm⟩ := hlegal
    simp only [Encoding.disassemble, himm]
  | amo op f3 f5 =>
    replace himm := setWidth_roundtrip (n := 2) imm hlegal
    have hlow : (f5 ++ imm.setWidth 2).extractLsb' 0 2 = imm.setWidth 2 :=
      BitVec.extractLsb'_append_eq_right
    simp only [Encoding.disassemble, Encoding.assemble, rd_packR, rs1_packR, rs2_packR,
      funct7_packR, hrd, hrs1, hrs2, hlow, himm]
  | lr op f3 f5 =>
    obtain ⟨rfl, himm⟩ := hlegal
    replace himm := setWidth_roundtrip (n := 2) imm himm
    have hlow : (f5 ++ imm.setWidth 2).extractLsb' 0 2 = imm.setWidth 2 :=
      BitVec.extractLsb'_append_eq_right
    simp only [Encoding.disassemble, Encoding.assemble, rd_packR, rs1_packR, funct7_packR, hrd,
      hrs1, hlow, himm]
  | r4 | rm | unaryRm | unary => cases hrow

/-- A word of a row is the assembly of the instruction read from it. -/
theorem assemble_disassemble (encoding : Encoding) (type : InstructionType) (w : BitVec 32)
    (hmatch : encoding.Matches w) : encoding.assemble (encoding.disassemble type w) = w := by
  cases encoding with
  | r op f3 f7 =>
    obtain ⟨rfl, rfl, rfl⟩ := hmatch
    simp only [Encoding.disassemble, Encoding.assemble, setWidth5_setWidth8, packR_fields]
  | i op f3 =>
    obtain ⟨rfl, rfl⟩ := hmatch
    simp only [Encoding.disassemble, Encoding.assemble, setWidth5_setWidth8,
      setWidth_signExtend _ (by decide : 12 ≤ 32), packI_fields]
  | s op f3 =>
    obtain ⟨rfl, rfl⟩ := hmatch
    simp only [Encoding.disassemble, Encoding.assemble, setWidth5_setWidth8,
      setWidth_signExtend _ (by decide : 12 ≤ 32), packS_fields]
  | b op f3 =>
    obtain ⟨rfl, rfl⟩ := hmatch
    simp only [Encoding.disassemble, Encoding.assemble, setWidth5_setWidth8,
      extractLsb'_signExtend_append_zero _ (by decide : 12 < 32), packB_fields]
  | u op =>
    obtain rfl := hmatch
    have himm : (immU w ++ 0#12).extractLsb' 12 20 = immU w := BitVec.extractLsb'_append_eq_left
    simp only [Encoding.disassemble, Encoding.assemble, setWidth5_setWidth8, himm, packU_fields]
  | j op =>
    obtain rfl := hmatch
    simp only [Encoding.disassemble, Encoding.assemble, setWidth5_setWidth8,
      extractLsb'_signExtend_append_zero _ (by decide : 20 < 32), packJ_fields]
  | shift op f3 f6 =>
    obtain ⟨rfl, rfl, rfl⟩ := hmatch
    simp only [Encoding.disassemble, Encoding.assemble, setWidth5_setWidth8,
      setWidth_setWidth_cancel _ (by decide : 6 ≤ 32), shamt_joined, packI_fields]
  | shiftW op f3 f7 =>
    obtain ⟨rfl, rfl, rfl⟩ := hmatch
    have hjoin : funct7 w ++ (immI w).extractLsb' 0 5 = immI w := by
      rw [immI, BitVec.extractLsb'_append_eq_right]
    simp only [Encoding.disassemble, Encoding.assemble, setWidth5_setWidth8,
      setWidth_setWidth_cancel _ (by decide : 5 ≤ 32), hjoin, packI_fields]
  | fence op f3 =>
    obtain ⟨rfl, rfl⟩ := hmatch
    simp only [Encoding.disassemble, Encoding.assemble, setWidth5_setWidth8,
      setWidth_setWidth_cancel _ (by decide : 12 ≤ 32), packI_fields]
  | fixed op f3 imm =>
    obtain ⟨rfl, rfl, rfl, h1, hd⟩ := hmatch
    have hfields := packI_fields w
    rwa [h1, hd] at hfields
  | amo op f3 f5 =>
    obtain ⟨rfl, rfl, rfl⟩ := hmatch
    simp only [Encoding.disassemble, Encoding.assemble, setWidth5_setWidth8,
      setWidth_setWidth_cancel _ (by decide : 2 ≤ 32), funct7_joined, packR_fields]
  | lr op f3 f5 =>
    obtain ⟨rfl, rfl, rfl, h2⟩ := hmatch
    simp only [Encoding.disassemble, Encoding.assemble, setWidth5_setWidth8,
      setWidth_setWidth_cancel _ (by decide : 2 ≤ 32), funct7_joined, ← h2, packR_fields]
  | r4 op fmt =>
    obtain ⟨rfl, rfl⟩ := hmatch
    simp only [Encoding.disassemble, Encoding.assemble, Instruction.roundingMode,
      Instruction.sourceRegister3, setWidth5_setWidth8, mode_of_pair, source3_of_pair,
      funct7_joined, packR_fields]
  | rm op f7 =>
    obtain ⟨rfl, rfl⟩ := hmatch
    simp only [Encoding.disassemble, Encoding.assemble, Instruction.roundingMode,
      setWidth5_setWidth8, mode_of_setWidth, packR_fields]
  | unaryRm op f7 sub =>
    obtain ⟨rfl, rfl, rfl⟩ := hmatch
    simp only [Encoding.disassemble, Encoding.assemble, Instruction.roundingMode,
      setWidth5_setWidth8, mode_of_setWidth, packR_fields]
  | unary op f7 sub f3 =>
    obtain ⟨rfl, rfl, rfl, rfl⟩ := hmatch
    simp only [Encoding.disassemble, Encoding.assemble, setWidth5_setWidth8, packR_fields]

end RiscvEmulator.Spec
