import RiscvEmulator.Guarantees.FetchAlignment

/-!
# What a run shows when it throws

The `switch` throws at the types it has no case for, and nothing else in the loop throws.
By then the cycle counter has been incremented, before the dispatch, so every throw leaves
one cycle more than the instructions that were executed, and the rest of the thread as the
last test of the loop condition found it.
-/
namespace RiscvEmulator.Guarantees
open Source Source.Emulator Library PartialRun ExceptList

variable {Handler : Type}

/-- The types the `switch` has a case for. -/
def supportedTypes : List InstructionType :=
  [.LUI, .AUIPC, .JAL, .JALR, .BEQ, .BNE, .BLT, .BGE, .BLTU, .BGEU]

/-- What the `default` of the `switch` throws. -/
def unsupportedInstruction : Thrown := .value (.runtimeError "Unsupported instruction")

/-- The program counter indexes an instruction of an unsupported type. -/
def FaultsAt (instructions : List Instruction) (t : Thread) : Prop :=
  ∃ instr, instructions[t.getInstructionIndex.toNat]? = some instr ∧ instr.type ∉ supportedTypes

/-- A run that throws leaves the thread as the instructions before the unsupported one did. -/
def FaultsPrecisely (emulator : Emulator Handler) (t : Thread) : Prop :=
  ∀ iterations object t', emulator.run iterations t = .threw object t' →
    ∃ k, k < iterations ∧ threadAtTest emulator.instructions t k = some t' ∧
      FaultsAt emulator.instructions t'

section Step
variable {instructions : List Instruction} {instr : Instruction} {t : Thread} {object : Thrown}

theorem get_not_thrown (file : RegisterFile) (index : RegisterIndex) :
    file.get index ≠ .error (.thrown object) := by
  unfold RegisterFile.get
  split <;> simp

theorem set_not_thrown (file : RegisterFile) (index : RegisterIndex) (value : Register) :
    file.set index value ≠ .error (.thrown object) := by
  unfold RegisterFile.set
  split
  · simp
  · split <;> simp

theorem branch_not_thrown (taken : Register → Register → Bool) :
    branch taken instr t ≠ .error (.thrown object) := by
  unfold branch
  apply bind_ne_error (get_not_thrown _ _)
  intro value1
  apply bind_ne_error (get_not_thrown _ _)
  intro value2
  simp

/-- The supported types are those with a case of their own. -/
theorem execute_thrown_iff :
    execute instr t = .error (.thrown object) ↔
      instr.type ∉ supportedTypes ∧ object = unsupportedInstruction := by
  by_cases hsupported : instr.type ∈ supportedTypes
  · simp only [hsupported, not_true_eq_false, false_and, iff_false]
    unfold execute
    split
    case h_1 | h_2 | h_3 =>
      apply bind_ne_error (set_not_thrown _ _ _)
      intro registers
      simp
    case h_4 =>
      apply bind_ne_error (set_not_thrown _ _ _)
      intro registers
      apply bind_ne_error (get_not_thrown _ _)
      intro base
      simp
    case h_11 => simp_all [supportedTypes]
    all_goals exact branch_not_thrown _
  · simp only [hsupported, not_false_eq_true, true_and]
    unfold execute
    split
    case h_11 => simp [throwValue, unsupportedInstruction, eq_comm]
    all_goals simp_all [supportedTypes]

/-- An iteration throws exactly where the program counter indexes an unsupported type. -/
theorem iteration_thrown_iff :
    iteration instructions t = .error (.thrown object) ↔
      FaultsAt instructions t ∧ object = unsupportedInstruction := by
  have hindex : ({ t with cycleCounter := t.cycleCounter + 1 } : Thread).getInstructionIndex =
      t.getInstructionIndex := rfl
  unfold iteration FaultsAt
  simp only [hindex]
  cases hfetch : instructions[t.getInstructionIndex.toNat]? with
  | none => simp
  | some instr =>
    simp only [Option.some.injEq, exists_eq_left']
    rw [← @execute_thrown_iff instr { t with cycleCounter := t.cycleCounter + 1 }]
    constructor
    · intro h
      rcases bind_error h with hexecute | ⟨s, -, hpure⟩
      · exact hexecute
      · exact absurd hpure (pure_ne_error _ _)
    · intro h
      rw [h]
      rfl

theorem loopTest_of_faultsAt (h : FaultsAt instructions t) : loopTest instructions t = true := by
  obtain ⟨instr, hfetch, -⟩ := h
  exact loopTest_of_fetch hfetch

/-- The run does not get past a fault. -/
theorem nextTest_of_faultsAt (h : FaultsAt instructions t) : nextTest instructions t = none := by
  have hiter := iteration_thrown_iff.mpr ⟨h, rfl⟩
  unfold nextTest
  rw [if_pos (loopTest_of_faultsAt h), hiter]
  rfl

end Step

section Run
variable {instructions : List Instruction} {t t' : Thread} {object : Thrown} {iterations : Nat}

/-- The throws of a run: the unsupported instruction it reaches, after one cycle more. -/
theorem runLoop_threw_iff :
    runLoop instructions iterations t = .threw object t' ↔
      ∃ k s, k < iterations ∧ threadAtTest instructions t k = some s ∧
        FaultsAt instructions s ∧ object = unsupportedInstruction ∧
        t' = { s with cycleCounter := s.cycleCounter + 1 } := by
  constructor
  · intro h
    have houtcome := runLoop_outcome instructions t iterations
    rw [h] at houtcome
    cases houtcome with
    | threw k s _ hk hreach htest hiter =>
      obtain ⟨hfault, hobject⟩ := iteration_thrown_iff.mp hiter
      exact ⟨k, s, hk, hreach, hfault, hobject, rfl⟩
  · rintro ⟨k, s, hk, hreach, hfault, rfl, rfl⟩
    have hsplit : iterations = k + (iterations - k - 1 + 1) := by omega
    rw [hsplit, runLoop_threadAtTest hreach, runLoop, if_pos (loopTest_of_faultsAt hfault),
      iteration_thrown_iff.mpr ⟨hfault, rfl⟩]

theorem add_one_cycle_ne (t : Thread) : { t with cycleCounter := t.cycleCounter + 1 } ≠ t := by
  intro h
  have hcycles : t.cycleCounter + 1 = t.cycleCounter := congrArg Thread.cycleCounter h
  simp at hcycles

end Run

/-- A run faults precisely exactly when it reaches no unsupported instruction. Where it
reaches one it throws there, with one cycle too many on the counter. -/
theorem faultsPrecisely_iff (emulator : Emulator Handler) (t : Thread) :
    (FaultsPrecisely emulator t ↔
      ∀ k s, threadAtTest emulator.instructions t k = some s →
        ¬FaultsAt emulator.instructions s) ∧
    ∀ iterations object t', emulator.run iterations t = .threw object t' ↔
      ∃ k s, k < iterations ∧ threadAtTest emulator.instructions t k = some s ∧
        FaultsAt emulator.instructions s ∧ object = unsupportedInstruction ∧
        t' = { s with cycleCounter := s.cycleCounter + 1 } := by
  refine ⟨?_, fun iterations object t' => runLoop_threw_iff⟩
  constructor
  · intro hprecise k s hreach hfault
    have hthrow : emulator.run (k + 1) t =
        .threw unsupportedInstruction { s with cycleCounter := s.cycleCounter + 1 } :=
      runLoop_threw_iff.mpr ⟨k, s, Nat.lt_succ_self k, hreach, hfault, rfl, rfl⟩
    obtain ⟨j, hj, hshown, hthere⟩ := hprecise _ _ _ hthrow
    -- the state shown is one the loop stops at, so it is the one the run stopped at
    have hle : k ≤ j := le_of_stopped hshown (nextTest_of_faultsAt hthere) hreach
    obtain rfl : j = k := by omega
    rw [hreach] at hshown
    exact add_one_cycle_ne s (Option.some.inj hshown).symm
  · intro hnone iterations object t' hthrow
    obtain ⟨k, s, -, hreach, hfault, -⟩ := runLoop_threw_iff.mp hthrow
    exact absurd hfault (hnone k s hreach)

/-- An ECALL alone: the run throws with one cycle counted and none executed. -/
theorem not_faultsPrecisely_ecall :
    ¬∀ (emulator : Emulator Unit) (t : Thread), FaultsPrecisely emulator t := by
  intro h
  obtain ⟨k, hk, hreach, -⟩ :=
    h ((Emulator.new 0 0).setInstructions [{ type := .ECALL }]) {} 1 _ _ rfl
  obtain rfl : k = 0 := by omega
  exact add_one_cycle_ne {} (Option.some.inj hreach).symm

end RiscvEmulator.Guarantees
