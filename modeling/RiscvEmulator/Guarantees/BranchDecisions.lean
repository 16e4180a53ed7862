import RiscvEmulator.Guarantees.DecodedRegisters
import RiscvEmulator.Guarantees.FetchAlignment

/-!
# Branch decisions, from the word to the run

The six comparisons of the BRANCH opcode, by the funct3 of the word. The type a branch
decodes to and the case the `switch` has for it make the same comparison, on the registers
the word names. The lowest bit of funct3, bit 12 of the word, negates it.
-/
namespace RiscvEmulator.Guarantees
open Source Source.Emulator Spec Library InstructionFormat

variable {Handler : Type}

/-- The comparison each funct3 of the BRANCH opcode names. -/
def comparisonNamed : BitVec 3 → Option (Register → Register → Bool)
  | 0b000 => some fun a b => decide (a = b)
  | 0b001 => some fun a b => decide (a ≠ b)
  | 0b100 => some fun a b => decide (a.toInt < b.toInt)
  | 0b101 => some fun a b => decide (b.toInt ≤ a.toInt)
  | 0b110 => some fun a b => decide (a.toNat < b.toNat)
  | 0b111 => some fun a b => decide (b.toNat ≤ a.toNat)
  | _ => none

/-- The value of the register a field names. x0 reads as 0. -/
def operand (t : Thread) (field : BitVec 5) : Register :=
  if field = 0 then 0 else t.registers.registers.get field.toFin

/-- The thread at the next test after a branch. -/
def afterBranch (instr : Instruction) (taken : Bool) (t : Thread) : Thread :=
  { t with
    programCounter := (if taken then t.programCounter + offset instr else t.programCounter) + 4
    cycleCounter := t.cycleCounter + 1 }

/-- Wherever a run is at this branch, it takes it as the decision says. -/
def Decides (Handler : Type) (instr : Instruction) (decision : Thread → Bool) : Prop :=
  ∀ (emulator : Emulator Handler) (t : Thread) (iterations : Nat),
    emulator.instructions[t.getInstructionIndex.toNat]? = some instr →
    emulator.run (iterations + 1) t = emulator.run iterations (afterBranch instr (decision t) t)

section Registers
variable {file : RegisterFile} {index : RegisterIndex}

theorem get_eq_read (h : index.toNat < registerCount) : file.get index = .ok (read file index) := by
  simp only [registerCount] at h
  simp [RegisterFile.get, Spec.read, h]

theorem read_field (t : Thread) (field : BitVec 5) :
    read t.registers (field.setWidth 8) = operand t field := by
  unfold operand
  split
  · next hzero =>
    rw [hzero]
    exact read_zero _
  · have hlt : field.toNat < 32 := field.isLt
    have hindex : (field.setWidth 8).toNat = field.toNat := by
      simp only [BitVec.toNat_setWidth]
      omega
    unfold Spec.read
    simp [hindex, hlt, Vector.get]

end Registers

section Execution
variable {instr : Instruction} {compare : Register → Register → Bool} {t : Thread}

theorem branch_below (taken : Register → Register → Bool)
    (h1 : instr.sourceRegister1.toNat < registerCount)
    (h2 : instr.sourceRegister2.toNat < registerCount) :
    branch taken instr t = .ok (if taken (read t.registers instr.sourceRegister1)
      (read t.registers instr.sourceRegister2) then transfer instr t else t) := by
  unfold branch
  rw [get_eq_read h1, get_eq_read h2]
  rfl

/-- The case of the `switch` for a branch makes the comparison of its type. -/
theorem execute_branch (hcompare : comparison instr.type = some compare)
    (h1 : instr.sourceRegister1.toNat < registerCount)
    (h2 : instr.sourceRegister2.toNat < registerCount) :
    execute instr t = .ok (if compare (read t.registers instr.sourceRegister1)
      (read t.registers instr.sourceRegister2) then transfer instr t else t) := by
  unfold comparison at hcompare
  split at hcompare
  case h_7 => cases hcompare
  all_goals
    next htype =>
    obtain rfl := Option.some.inj hcompare
    unfold execute
    rw [htype]
    simp [branch_below _ h1 h2, BitVec.slt, BitVec.sle, BitVec.ult, BitVec.ule, bne]

theorem iteration_branch {instructions : List Instruction}
    (hfetch : instructions[t.getInstructionIndex.toNat]? = some instr)
    (hcompare : comparison instr.type = some compare)
    (h1 : instr.sourceRegister1.toNat < registerCount)
    (h2 : instr.sourceRegister2.toNat < registerCount) :
    iteration instructions t = .ok (afterBranch instr (compare
      (read t.registers instr.sourceRegister1) (read t.registers instr.sourceRegister2)) t) := by
  have hindex : ({ t with cycleCounter := t.cycleCounter + 1 } : Thread).getInstructionIndex =
      t.getInstructionIndex := rfl
  unfold iteration
  simp only [hindex, hfetch, execute_branch hcompare h1 h2, ExceptList.ok_bind]
  unfold afterBranch
  split <;> rfl

end Execution

section Words
variable {w : BitVec 32} {instr r : Instruction}

theorem comparison_of_encoding {t : InstructionType} {f3 : BitVec 3}
    (h : encodingOf t = .b opBranch f3) :
    ∃ compare, comparisonNamed f3 = some compare ∧ comparison t = some compare := by
  cases t <;> cases h <;> exact ⟨_, rfl, rfl⟩

/-- The branch with the opposite comparison. -/
theorem opposite_encoding {t : InstructionType} {f3 : BitVec 3}
    (h : encodingOf t = .b opBranch f3) :
    ∃ t' compare compare', encodingOf t' = .b opBranch (f3 ^^^ 1) ∧
      comparison t = some compare ∧ comparison t' = some compare' ∧
      ∀ a b, compare' a b = !compare a b := by
  cases t <;> cases h
  case BEQ => exact ⟨.BNE, _, _, rfl, rfl, rfl, by simp⟩
  case BNE => exact ⟨.BEQ, _, _, rfl, rfl, rfl, by simp⟩
  case BLT => exact ⟨.BGE, _, _, rfl, rfl, rfl, fun a b => by simp [← decide_not]⟩
  case BGE => exact ⟨.BLT, _, _, rfl, rfl, rfl, fun a b => by simp [← decide_not]⟩
  case BLTU => exact ⟨.BGEU, _, _, rfl, rfl, rfl, fun a b => by simp [← decide_not]⟩
  case BGEU => exact ⟨.BLTU, _, _, rfl, rfl, rfl, fun a b => by simp [← decide_not]⟩

/-- Bit 12 is in no field of a branch but funct3. -/
theorem flip_fields (w : BitVec 32) :
    opcode (w ^^^ 0x1000) = opcode w ∧ funct3 (w ^^^ 0x1000) = funct3 w ^^^ 1 ∧
      rs1 (w ^^^ 0x1000) = rs1 w ∧ rs2 (w ^^^ 0x1000) = rs2 w ∧
      readFieldsB (w ^^^ 0x1000) instr =
        ((readFieldsB w instr).1, getFunct3 (w ^^^ 0x1000)) := by
  have hopcode : opcode (w ^^^ 0x1000) = opcode w := by
    rw [opcode_xor]
    exact BitVec.xor_zero
  have hrd : rd (w ^^^ 0x1000) = rd w := by
    rw [rd_xor]
    exact BitVec.xor_zero
  have hrs1 : rs1 (w ^^^ 0x1000) = rs1 w := by
    rw [rs1_xor]
    exact BitVec.xor_zero
  have hrs2 : rs2 (w ^^^ 0x1000) = rs2 w := by
    rw [rs2_xor]
    exact BitVec.xor_zero
  have hfunct7 : funct7 (w ^^^ 0x1000) = funct7 w := by
    rw [funct7_xor]
    exact BitVec.xor_zero
  refine ⟨hopcode, funct3_xor w 0x1000, hrs1, hrs2, ?_⟩
  simp only [readFieldsB, getSourceRegister1_eq, getSourceRegister2_eq, getImmediateB_eq, immB,
    hrd, hrs1, hrs2, hfunct7]

/-- A decoded branch decides by the comparison of its type on the registers of the word. -/
theorem decides_of_decoded {compare : Register → Register → Bool}
    (hdecode : decodeBranch w instr = .ok r) (hcompare : comparison r.type = some compare) :
    Decides Handler r fun t => compare (operand t (rs1 w)) (operand t (rs2 w)) := by
  intro emulator t iterations hfetch
  have hfields := (outcome_decodeBranch _ _).settles hdecode
  have hsource1 : r.sourceRegister1 = (rs1 w).setWidth 8 := by
    rw [hfields]
    exact getSourceRegister1_eq w
  have hsource2 : r.sourceRegister2 = (rs2 w).setWidth 8 := by
    rw [hfields]
    exact getSourceRegister2_eq w
  unfold run
  rw [runLoop, if_pos (loopTest_of_fetch hfetch), iteration_branch hfetch hcompare
    (by rw [hsource1]; exact toNat_register_field _)
    (by rw [hsource2]; exact toNat_register_field _), hsource1, hsource2, read_field, read_field]

end Words

/-- Every accepted BRANCH word is taken as its funct3 says of the registers it names, and
the word with bit 12 flipped is the branch with the same operands and offset that is taken
exactly when this one is not. -/
theorem branch_decision (w : BitVec 32) (instr r : Instruction) (hbranch : opcode w = opBranch)
    (hdecode : decodeBranch w instr = .ok r) :
    ∃ compare, comparisonNamed (funct3 w) = some compare ∧
      Decides Handler r (fun t => compare (operand t (rs1 w)) (operand t (rs2 w))) ∧
      ∃ r', opcode (w ^^^ 0x1000) = opBranch ∧ decodeBranch (w ^^^ 0x1000) instr = .ok r' ∧
        r' = { r with type := r'.type } ∧
        Decides Handler r' fun t => !compare (operand t (rs1 w)) (operand t (rs2 w)) := by
  have hencoding := decodeBranch_ok hdecode
  obtain ⟨compare, hnamed, hcompare⟩ := comparison_of_encoding hencoding
  obtain ⟨t', same, opposite, hencoding', hsame, hopposite, hnot⟩ := opposite_encoding hencoding
  obtain rfl := Option.some.inj (hcompare.symm.trans hsame)
  obtain ⟨hopcode, hfunct3, hrs1, hrs2, hread⟩ := @flip_fields instr w
  have hflipped : decodeBranch (w ^^^ 0x1000) instr =
      .ok { (readFieldsB w instr).1 with type := t' } := by
    rw [← hfunct3] at hencoding'
    rw [decodeBranch_row _ _ _ hencoding', hread]
  refine ⟨compare, hnamed, decides_of_decoded hdecode hcompare, _, hopcode.trans hbranch, hflipped,
    ?_, ?_⟩
  · rw [(outcome_decodeBranch _ _).settles hdecode]
  · have hdecides := @decides_of_decoded Handler _ instr _ opposite hflipped hopposite
    rw [hrs1, hrs2] at hdecides
    simpa only [hnot] using hdecides

/-- BLTU x1, x2, 8, and BGEU with bit 12 set. -/
theorem branch_decision_bltu :
    ∃ compare, comparisonNamed 0b110 = some compare ∧
      Decides Unit { immediate := 8, sourceRegister1 := 1, sourceRegister2 := 2, type := .BLTU }
        (fun t => compare (operand t 1) (operand t 2)) ∧
      ∃ r', opcode (0x0020e463 ^^^ 0x1000) = opBranch ∧
        decodeBranch (0x0020e463 ^^^ 0x1000) {} = .ok r' ∧
        r' = { immediate := 8, sourceRegister1 := 1, sourceRegister2 := 2, type := r'.type } ∧
        Decides Unit r' fun t => !compare (operand t 1) (operand t 2) :=
  branch_decision 0x0020e463 {} _ rfl rfl

end RiscvEmulator.Guarantees
