import RiscvEmulator.Guarantees.DecodedRegisters
import RiscvEmulator.Guarantees.PreciseFaults

/-!
# Programs that only go forward

Without JALR, and with every jump and branch offset at least 4, an iteration goes to a
larger instruction index: after the increment of the loop a transfer lands two places
further or more, and no program counter below `4 * 2 ^ 60` wraps on the way. The index is
below the number of instructions as long as the run goes on, so the run ends.
-/
namespace RiscvEmulator.Guarantees
open Source Source.Emulator Spec Library PartialRun

variable {Handler : Type}

/-- The types that transfer by their immediate. -/
def offsetTypes : List InstructionType := [.JAL, .BEQ, .BNE, .BLT, .BGE, .BLTU, .BGEU]

/-- No JALR, and no transfer that does not go forward. -/
structure ForwardOnly (instructions : List Instruction) : Prop where
  noJALR : ∀ instr ∈ instructions, instr.type ≠ .JALR
  forward : ∀ instr ∈ instructions, instr.type ∈ offsetTypes → 4 ≤ instr.immediate.toInt

/-- The call of `run` has ended, by returning or by throwing at an unsupported instruction. -/
def Stopped (instructions : List Instruction) (result : RunResult) : Prop :=
  (∃ t, result = .returned t) ∨
    ∃ object t, result = .threw object t ∧ FaultsAt instructions t

section Step
variable {instructions : List Instruction} {instr : Instruction} {t t' : Thread}

/-- An offset of 4 or more is added without a sign. -/
theorem offset_toNat (h : 4 ≤ instr.immediate.toInt) :
    4 ≤ (offset instr).toNat ∧ (offset instr).toNat < 2 ^ 31 := by
  have hlt := instr.immediate.isLt
  have hmsb : instr.immediate.msb = false := by
    rw [BitVec.toInt_eq_msb_cond] at h
    by_contra hset
    rw [if_pos (by simpa using hset)] at h
    omega
  have hnat : instr.immediate.toInt = instr.immediate.toNat :=
    BitVec.toInt_eq_toNat_of_msb hmsb
  have hbound := BitVec.msb_eq_false_iff_two_mul_lt.mp hmsb
  rw [offset, BitVec.signExtend_eq_setWidth_of_msb_false hmsb]
  simp only [BitVec.toNat_setWidth]
  omega

theorem offsetTypes_of_taken {x : RegisterIndex → Register} (h : taken instr x = true) :
    instr.type ∈ offsetTypes := by
  unfold taken comparison at h
  split at h
  case h_7 => simp at h
  all_goals
    next htype =>
    rw [htype]
    decide

/-- Where an iteration of such a program goes. -/
theorem index_lt_of_iteration (hlength : instructions.length < 2 ^ 60)
    (hforward : ForwardOnly instructions) (hiter : iteration instructions t = .ok t') :
    t.getInstructionIndex.toNat < t'.getInstructionIndex.toNat := by
  obtain ⟨instr, hfetch, hpc, -⟩ := iteration_ok hiter
  have hmem := List.mem_of_getElem? hfetch
  obtain ⟨hinside, -⟩ := List.getElem?_eq_some_iff.mp hfetch
  simp only [Thread.getInstructionIndex_toNat]
  rw [hpc, switchTarget, if_neg (hforward.noJALR instr hmem)]
  split
  · next htransfer =>
    have htype : instr.type ∈ offsetTypes := by
      rcases htransfer with hjal | htaken
      · simp [hjal, offsetTypes]
      · exact offsetTypes_of_taken htaken
    have hoffset := offset_toNat (hforward.forward instr hmem htype)
    simp only [BitVec.toNat_add, BitVec.reduceToNat]
    omega
  · simp only [BitVec.toNat_add, BitVec.reduceToNat]
    omega

theorem index_lt_of_nextTest (hlength : instructions.length < 2 ^ 60)
    (hforward : ForwardOnly instructions) (t t' : Thread)
    (hnext : nextTest instructions t = some t') :
    t.getInstructionIndex.toNat < t'.getInstructionIndex.toNat :=
  index_lt_of_iteration hlength hforward (nextTest_eq_some.mp hnext).2

/-- An iteration without defined behaviour names a register that does not exist. -/
theorem operands_of_undefined (htest : loopTest instructions t = true)
    (hiter : iteration instructions t = .error .undefinedBehaviour) :
    ∃ instr, instructions[t.getInstructionIndex.toNat]? = some instr ∧ ¬OperandsBelow instr := by
  obtain ⟨instr, hfetch⟩ := fetch_of_loopTest htest
  refine ⟨instr, hfetch, fun hbelow => ?_⟩
  exact iteration_defined_of_fetch hfetch hbelow hiter

end Step

section Run
variable {instructions : List Instruction} {t s : Thread} {k : Nat}

/-- Iteration `k`, counted from 0, is started only if there are more instructions. -/
theorem lt_length_of_started (hlength : instructions.length < 2 ^ 60)
    (hforward : ForwardOnly instructions) (hreach : threadAtTest instructions t k = some s)
    (htest : loopTest instructions s = true) : k < instructions.length := by
  have hmeasure := @measure_add_le _ _ _ _ _ (fun s => s.getInstructionIndex.toNat)
    (index_lt_of_nextTest hlength hforward) hreach
  have hindex : s.getInstructionIndex.toNat < instructions.length := of_decide_eq_true htest
  omega

/-- The instruction index only grows. -/
theorem index_lt_of_later (hlength : instructions.length < 2 ^ 60)
    (hforward : ForwardOnly instructions) {i j : Nat} {s' : Thread} (hlt : i < j)
    (hreach : threadAtTest instructions t i = some s)
    (hlater : threadAtTest instructions t j = some s') :
    s.getInstructionIndex.toNat < s'.getInstructionIndex.toNat :=
  @measure_lt_of_lt _ _ _ _ _ _ (fun s => s.getInstructionIndex.toNat)
    (index_lt_of_nextTest hlength hforward) _ hlt hreach hlater

/-- So no run completes more iterations than there are instructions. -/
theorem le_length_of_reached (hlength : instructions.length < 2 ^ 60)
    (hforward : ForwardOnly instructions) (hreach : threadAtTest instructions t k = some s) :
    k ≤ instructions.length := by
  cases k with
  | zero => exact Nat.zero_le _
  | succ k =>
    obtain ⟨before, hprev, hnext⟩ := runFor_succ_iff.mp hreach
    exact lt_length_of_started hlength hforward hprev (nextTest_eq_some.mp hnext).1

end Run

/-- A forward-only program of fewer than `2 ^ 60` instructions starts at most as many
iterations as it has instructions, none of them at an index an earlier one was at, and
stops, unless it comes to an instruction that names a register that does not exist. -/
theorem forward_run (emulator : Emulator Handler) (t : Thread)
    (hlength : emulator.instructions.length < 2 ^ 60)
    (hforward : ForwardOnly emulator.instructions) :
    (∀ k s, threadAtTest emulator.instructions t k = some s →
      loopTest emulator.instructions s = true → k < emulator.instructions.length) ∧
    (∀ i j s s', i < j → threadAtTest emulator.instructions t i = some s →
      threadAtTest emulator.instructions t j = some s' →
      s.getInstructionIndex ≠ s'.getInstructionIndex) ∧
    (Stopped emulator.instructions
        (emulator.run (emulator.instructions.length + 1) t) ∨
      emulator.run (emulator.instructions.length + 1) t = .undefinedBehaviour ∧
        ∃ k s instr, threadAtTest emulator.instructions t k = some s ∧
          emulator.instructions[s.getInstructionIndex.toNat]? = some instr ∧
          ¬OperandsBelow instr) := by
  refine ⟨fun k s => lt_length_of_started hlength hforward, ?_, ?_⟩
  · intro i j s s' hlt hreach hlater hsame
    have hgrows := index_lt_of_later hlength hforward hlt hreach hlater
    rw [hsame] at hgrows
    exact Nat.lt_irrefl _ hgrows
  · have houtcome := runLoop_outcome emulator.instructions t (emulator.instructions.length + 1)
    unfold run
    generalize runLoop emulator.instructions (emulator.instructions.length + 1) t = result
      at houtcome ⊢
    cases houtcome with
    | returned k s hk hreach htest => exact .inl (.inl ⟨s, rfl⟩)
    | threw k s object hk hreach htest hiter =>
      exact .inl (.inr ⟨object, _, rfl, (iteration_thrown_iff.mp hiter).1⟩)
    | undefinedBehaviour k s hk hreach htest hiter =>
      obtain ⟨instr, hfetch, hoperands⟩ := operands_of_undefined htest hiter
      exact .inr ⟨rfl, k, s, instr, hreach, hfetch, hoperands⟩
    | running s hreach =>
      -- the run would have completed one iteration more than there are instructions
      have hle := le_length_of_reached hlength hforward hreach
      omega

/-- A JAL over an ECALL and a branch. -/
def forwardProgram : Emulator Unit := (Emulator.new 0 0).setInstructions
  [{ immediate := 4, destinationRegister := 1, type := .JAL }, { type := .ECALL },
    { immediate := 6, sourceRegister1 := 1, type := .BNE }]

theorem forward_run_jal :
    Stopped forwardProgram.instructions (forwardProgram.run 4 {}) := by
  have hforward : ForwardOnly forwardProgram.instructions := by
    constructor <;> decide
  obtain ⟨-, -, hstops | ⟨hundefined, -⟩⟩ := forward_run forwardProgram {} (by decide) hforward
  · exact hstops
  · cases hundefined

/-- A JAL that links into register 200: the call neither returns nor throws. -/
theorem not_stopped_register :
    ¬∀ (emulator : Emulator Unit) (t : Thread),
      emulator.instructions.length < 2 ^ 60 → ForwardOnly emulator.instructions →
      Stopped emulator.instructions (emulator.run (emulator.instructions.length + 1) t) := by
  intro h
  have hforward : ForwardOnly [{ immediate := 4, destinationRegister := 200, type := .JAL }] := by
    constructor <;> decide
  have hstopped := h ((Emulator.new 0 0).setInstructions
    [{ immediate := 4, destinationRegister := 200, type := .JAL }]) {} (by decide) hforward
  rcases hstopped with ⟨t, hreturned⟩ | ⟨object, t, hthrew, -⟩
  · cases hreturned
  · cases hthrew

end RiscvEmulator.Guarantees
