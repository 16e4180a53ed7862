import RiscvEmulator.Guarantees.DecodedFields
import RiscvEmulator.Source.Emulator

/-!
# Register numbers of decoded instructions

Every register number of a decoded instruction comes from a five-bit field of the word,
also the third source of a fused multiply-add. So the interpreter, which checks no index,
stays inside the register file, and the loop condition keeps it inside the instruction
vector.
-/
namespace RiscvEmulator.Guarantees
open Source Source.Emulator Spec Library InstructionFormat WordBytes ExceptList

variable {w : BitVec 32} {r : Instruction} {t : InstructionType}

structure OperandsBelow (instr : Instruction) : Prop where
  destination : instr.destinationRegister.toNat < registerCount
  source1 : instr.sourceRegister1.toNat < registerCount
  source2 : instr.sourceRegister2.toNat < registerCount

/-- The types that read `floatOp.sourceRegister3`. -/
def fusedTypes : List InstructionType :=
  [.FMADDS, .FMSUBS, .FNMSUBS, .FNMADDS, .FMADDD, .FMSUBD, .FNMSUBD, .FNMADDD]

structure RegistersBelow (instr : Instruction) : Prop extends OperandsBelow instr where
  source3 : instr.type ∈ fusedTypes → instr.sourceRegister3.toNat < registerCount

section Decoder

theorem toNat_register_field (field : BitVec 5) : (field.setWidth 8).toNat < registerCount := by
  have hlt := field.isLt
  simp only [BitVec.toNat_setWidth, registerCount]
  omega

theorem below_of_field {present : Bool} {field : BitVec 5} {index : RegisterIndex}
    (h : index = if present then field.setWidth 8 else 0) : index.toNat < registerCount := by
  rw [h]
  cases present with
  | true => exact toNat_register_field field
  | false => simp [registerCount]

/-- The fused types are those of the four fused opcodes. -/
theorem fusedOpcodes_of_fusedTypes (h : t ∈ fusedTypes) :
    (encodingOf t).fixedOpcode ∈ fusedOpcodes := by
  have hall : ∀ t ∈ fusedTypes, (encodingOf t).fixedOpcode ∈ fusedOpcodes := by decide
  exact hall t h

/-- Every register number of an accepted word is below 32. -/
theorem decodeInstruction_below (hr : decodeInstruction {} w = .ok r) : RegistersBelow r := by
  obtain ⟨hdestination, hsource1, hsource2⟩ := decodeInstruction_registers hr
  refine ⟨⟨below_of_field hdestination, below_of_field hsource1, below_of_field hsource2⟩, ?_⟩
  intro hfused
  have hop := fusedOpcodes_of_fusedTypes hfused
  rw [decodeInstruction_opcode hr] at hop
  rw [decodeInstruction_source3 hr hop]
  exact toNat_register_field _

/-- So is every register number of an accepted program. -/
theorem decodeInstructions_below {native : Endian} {program : List Byte}
    {instrs : List Instruction} (haccept : decodeInstructions native program = .ok instrs) :
    ∀ instr ∈ instrs, RegistersBelow instr := by
  obtain ⟨-, hall⟩ := (decodeInstructions_ok_iff _ _ _).mp haccept
  intro instr hmem
  obtain ⟨i, hi, rfl⟩ := List.getElem_of_mem hmem
  have hword := hall.get (by rw [hall.length_eq]; exact hi) hi
  exact decodeInstruction_below (decodeWord_ok_low_bits hword).2

end Decoder

section Interpreter
variable {file : RegisterFile} {index : RegisterIndex} {thread : Thread} {instr : Instruction}
  {instructions : List Instruction}

theorem get_defined (h : index.toNat < registerCount) :
    file.get index ≠ .error .undefinedBehaviour := by
  obtain ⟨value, hget⟩ := file.get_ok h
  simp [hget]

theorem set_defined (h : index.toNat < registerCount) (value : Register) :
    file.set index value ≠ .error .undefinedBehaviour := by
  obtain ⟨file', hset⟩ := file.set_ok h value
  simp [hset]

theorem branch_defined (taken : Register → Register → Bool) (h : OperandsBelow instr) :
    branch taken instr thread ≠ .error .undefinedBehaviour := by
  unfold branch
  refine bind_ne_error (get_defined h.source1) fun value1 => ?_
  exact bind_ne_error (get_defined h.source2) fun value2 => pure_ne_error _ _

/-- The `switch` accesses registers below 32 only. -/
theorem execute_defined (h : OperandsBelow instr) :
    execute instr thread ≠ .error .undefinedBehaviour := by
  unfold execute
  split
  case h_1 | h_2 | h_3 =>
    exact bind_ne_error (set_defined h.destination _) fun _ => pure_ne_error _ _
  case h_4 =>
    refine bind_ne_error (set_defined h.destination _) fun registers => ?_
    exact bind_ne_error (get_defined h.source1) fun base => pure_ne_error _ _
  case h_11 => simp [throwValue]
  all_goals exact branch_defined _ h

theorem iteration_defined_of_fetch
    (hfetch : instructions[thread.getInstructionIndex.toNat]? = some instr)
    (hbelow : OperandsBelow instr) :
    iteration instructions thread ≠ .error .undefinedBehaviour := by
  have hindex : ({ thread with cycleCounter := thread.cycleCounter + 1 } :
      Thread).getInstructionIndex = thread.getInstructionIndex := rfl
  unfold iteration
  simp only [hindex, hfetch]
  exact bind_ne_error (execute_defined hbelow) fun _ => pure_ne_error _ _

/-- Where the loop condition holds, the iteration fetches from inside the vector. -/
theorem iteration_defined (hbelow : ∀ instr ∈ instructions, OperandsBelow instr)
    (htest : loopTest instructions thread = true) :
    iteration instructions thread ≠ .error .undefinedBehaviour := by
  have hindex : thread.getInstructionIndex.toNat < instructions.length := of_decide_eq_true htest
  exact iteration_defined_of_fetch (List.getElem?_eq_getElem hindex)
    (hbelow _ (List.getElem_mem hindex))

/-- So no run meets undefined behaviour, whatever it jumps to. -/
theorem runLoop_defined (hbelow : ∀ instr ∈ instructions, OperandsBelow instr) (iterations : Nat) :
    runLoop instructions iterations thread ≠ .undefinedBehaviour := by
  intro hundefined
  have houtcome := runLoop_outcome instructions thread iterations
  rw [hundefined] at houtcome
  cases houtcome with
  | undefinedBehaviour k s hk hreach htest hiter => exact iteration_defined hbelow htest hiter

end Interpreter

/-- An accepted program names only registers that exist, and running it, from any thread
state and in any emulator, never accesses a register or an instruction that does not. -/
theorem decoded_run_defined {Handler : Type} (native : Endian) (program : List Byte)
    (instrs : List Instruction) (haccept : decodeInstructions native program = .ok instrs) :
    (∀ instr ∈ instrs,
      instr.destinationRegister.toNat < registerCount ∧
      instr.sourceRegister1.toNat < registerCount ∧
      instr.sourceRegister2.toNat < registerCount ∧
      (instr.type ∈ fusedTypes → instr.sourceRegister3.toNat < registerCount)) ∧
    (∀ thread, loopTest instrs thread = true →
      iteration instrs thread ≠ .error .undefinedBehaviour) ∧
    ∀ (emulator : Emulator Handler) (thread : Thread) (iterations : Nat),
      (emulator.setInstructions instrs).run iterations thread ≠ .undefinedBehaviour := by
  have hbelow := decodeInstructions_below haccept
  refine ⟨fun instr hmem => ?_, fun thread => ?_, fun emulator thread iterations => ?_⟩
  · obtain ⟨⟨hdestination, hsource1, hsource2⟩, hsource3⟩ := hbelow instr hmem
    exact ⟨hdestination, hsource1, hsource2, hsource3⟩
  · exact iteration_defined fun instr hmem => (hbelow instr hmem).toOperandsBelow
  · exact runLoop_defined (fun instr hmem => (hbelow instr hmem).toOperandsBelow) iterations

/-- A JALR through x31 to x31. -/
theorem decoded_run_defined_jalr :
    ((Emulator.new 0 0 : Emulator Unit).setInstructions [{
      immediate := 0xffffffff, destinationRegister := 31, sourceRegister1 := 31,
      type := .JALR }]).run 2 {} ≠ .undefinedBehaviour :=
  (decoded_run_defined .little (wordBytes 0xffff8fe7#32) _ rfl).2.2 _ _ _

end RiscvEmulator.Guarantees
