import Mathlib.Data.Finite.Prod
import Mathlib.Data.Fintype.Pi
import RiscvEmulator.Guarantees.DecodedRegisters
import RiscvEmulator.Guarantees.RegisterHistory
import RiscvEmulator.Library.Recurrence

/-!
# What decides about a run

The program counter and the integer registers. A thread that differs in its floating-point
registers, rounding mode, exception flags or cycle counter goes the same way and ends the
same way, with those kept as it had them. There are finitely many program counters and
registers, so a run never ends exactly when it comes back to ones it has been at, and ends
in every other case.
-/
namespace RiscvEmulator.Guarantees
open Source Source.Emulator Spec Library PartialRun ExceptList

variable {Handler : Type}

/-- The program counter and the integer registers. -/
structure SameControl (t t' : Thread) : Prop where
  programCounter : t'.programCounter = t.programCounter
  registers : t'.registers = t.registers

/-- `t'` moved to the program counter and the integer registers of `s`. -/
def moved (t' s : Thread) : Thread :=
  { t' with registers := s.registers, programCounter := s.programCounter }

/-- `t'` after the `cycles` iterations that led to `s`. -/
def movedFor (t' s : Thread) (cycles : Register) : Thread :=
  { moved t' s with cycleCounter := t'.cycleCounter + cycles }

section Step
variable {instructions : List Instruction} {instr : Instruction} {t t' s : Thread}

theorem sameControl_movedFor (t' s : Thread) (cycles : Register) :
    SameControl s (movedFor t' s cycles) := ⟨rfl, rfl⟩

theorem branch_congr (taken : Register → Register → Bool) (h : SameControl t t') :
    branch taken instr t' = (branch taken instr t).map (moved t') := by
  obtain ⟨hpc, hregisters⟩ := h
  unfold branch
  rw [hregisters]
  cases t.registers.get instr.sourceRegister1 with
  | error e => rfl
  | ok value1 =>
    rw [ok_bind, ok_bind]
    cases t.registers.get instr.sourceRegister2 with
    | error e => rfl
    | ok value2 =>
      cases htaken : taken value1 value2 with
      | true => simp [moved, transfer, htaken, hpc, ← hregisters, pure, Except.pure, Except.map]
      | false => simp [moved, htaken, ← hpc, ← hregisters, pure, Except.pure, Except.map]

theorem execute_congr (h : SameControl t t') :
    execute instr t' = (execute instr t).map (moved t') := by
  obtain ⟨hpc, hregisters⟩ := id h
  unfold execute
  split
  case h_1 =>
    rw [hregisters]
    cases t.registers.set instr.destinationRegister (instr.immediate.signExtend 64) with
    | error e => rfl
    | ok registers => simp [moved, hpc, pure, Except.pure, Except.map]
  case h_2 =>
    rw [hregisters, hpc]
    cases t.registers.set instr.destinationRegister
        (t.programCounter + instr.immediate.signExtend 64) with
    | error e => rfl
    | ok registers => simp [moved, pure, Except.pure, Except.map]
  case h_3 =>
    rw [hregisters, Thread.getNextProgramCounter, Thread.getNextProgramCounter, hpc]
    cases t.registers.set instr.destinationRegister (t.programCounter + 4) with
    | error e => rfl
    | ok registers => simp [moved, transfer, pure, Except.pure, Except.map]
  case h_4 =>
    rw [hregisters, Thread.getNextProgramCounter, Thread.getNextProgramCounter, hpc]
    cases t.registers.set instr.destinationRegister (t.programCounter + 4) with
    | error e => rfl
    | ok registers =>
      rw [ok_bind, ok_bind]
      cases registers.get instr.sourceRegister1 with
      | error e => rfl
      | ok base => simp [moved, pure, Except.pure, Except.map]
  case h_11 => rfl
  all_goals exact branch_congr _ h

/-- One iteration of `t'` is the one of `t`, but for what `t'` has besides. -/
theorem iteration_congr (h : SameControl t t') :
    iteration instructions t' = (iteration instructions t).map fun s => movedFor t' s 1 := by
  unfold iteration
  dsimp only
  have hcontrol : SameControl { t with cycleCounter := t.cycleCounter + 1 }
      { t' with cycleCounter := t'.cycleCounter + 1 } := ⟨h.programCounter, h.registers⟩
  have hindex : Thread.getInstructionIndex { t' with cycleCounter := t'.cycleCounter + 1 } =
      Thread.getInstructionIndex { t with cycleCounter := t.cycleCounter + 1 } := by
    simp [Thread.getInstructionIndex, h.programCounter]
  rw [hindex]
  split
  next instr _ =>
    rw [execute_congr hcontrol]
    cases execute instr { t with cycleCounter := t.cycleCounter + 1 } with
    | error e => rfl
    | ok s => rfl
  next => rfl

theorem loopTest_congr (h : SameControl t t') :
    loopTest instructions t' = loopTest instructions t := by
  simp [loopTest, Thread.getInstructionIndex, h.programCounter]

theorem nextTest_congr (h : SameControl t t') :
    nextTest instructions t' = (nextTest instructions t).map fun s => movedFor t' s 1 := by
  unfold nextTest
  rw [loopTest_congr h, iteration_congr h]
  split
  · cases iteration instructions t <;> rfl
  · rfl

end Step

section Run
variable {instructions : List Instruction} {t t' s : Thread}

theorem movedFor_zero (h : SameControl t t') : movedFor t' t 0 = t' := by
  simp [movedFor, moved, ← h.programCounter, ← h.registers]

theorem movedFor_movedFor (t' s r : Thread) (first second : Register) :
    movedFor (movedFor t' s first) r second = movedFor t' r (first + second) := by
  simp [movedFor, moved, BitVec.add_assoc]

/-- The result a run from `t` has, for a thread `t'` that differs in the rest. -/
def resultFor (t t' : Thread) : RunResult → RunResult
  | .returned s => .returned (movedFor t' s (s.cycleCounter - t.cycleCounter))
  | .threw object s => .threw object (movedFor t' s (s.cycleCounter - t.cycleCounter))
  | .undefinedBehaviour => .undefinedBehaviour
  | .running s => .running (movedFor t' s (s.cycleCounter - t.cycleCounter))

/-- Counting from after the first iteration or from before it gives the same result. -/
theorem resultFor_step (hcycles : s.cycleCounter = t.cycleCounter + 1) (result : RunResult) :
    resultFor s (movedFor t' s 1) result = resultFor t t' result := by
  have hcount (r : Thread) : 1#64 + (r.cycleCounter - s.cycleCounter) =
      r.cycleCounter - t.cycleCounter := by
    rw [hcycles, BitVec.add_comm t.cycleCounter]
    apply BitVec.eq_of_toNat_eq
    simp only [BitVec.toNat_add, BitVec.toNat_sub, BitVec.reduceToNat]
    omega
  cases result <;> simp [resultFor, movedFor_movedFor, hcount]

theorem runLoop_congr (h : SameControl t t') (iterations : Nat) :
    runLoop instructions iterations t' = resultFor t t' (runLoop instructions iterations t) := by
  have hstay : movedFor t' t (t.cycleCounter - t.cycleCounter) = t' := by
    rw [BitVec.sub_self]
    exact movedFor_zero h
  induction iterations generalizing t t' with
  | zero => exact congrArg RunResult.running hstay.symm
  | succ iterations ih =>
    rw [runLoop, runLoop, loopTest_congr h, iteration_congr h]
    split
    · cases hiter : iteration instructions t with
      | ok s =>
        obtain ⟨registers, programCounter, hs⟩ := iteration_frame hiter
        show runLoop instructions iterations (movedFor t' s 1) = _
        have hcontrol := sameControl_movedFor t' s 1
        rw [ih hcontrol (by rw [BitVec.sub_self]; exact movedFor_zero hcontrol)]
        exact resultFor_step (by rw [hs]) _
      | error e =>
        cases e with
        | undefinedBehaviour => rfl
        | thrown object =>
          show RunResult.threw object _ = RunResult.threw object _
          congr 1
          have hone : t.cycleCounter + 1 - t.cycleCounter = 1 := by
            rw [BitVec.add_comm, BitVec.add_sub_cancel]
          simp only [movedFor, moved, hone, ← h.programCounter, ← h.registers]
    · exact congrArg RunResult.returned hstay.symm

/-- A run makes the same of a thread whatever its floating-point registers, rounding mode,
exception flags and cycle counter are, and adds the same to the cycle counter. -/
theorem run_lockstep (emulator : Emulator Handler) (t other : Thread) (iterations : Nat) :
    emulator.run iterations (moved other t) =
      resultFor t (moved other t) (emulator.run iterations t) :=
  @runLoop_congr emulator.instructions t (moved other t) ⟨rfl, rfl⟩ iterations

/-- One of finitely many values that decide how a run goes on. -/
def controlOf (t : Thread) : Fin (2 ^ 64) × (Fin 32 → Fin (2 ^ 64)) :=
  (t.programCounter.toFin, fun i => t.registers.registers[i].toFin)

theorem controlOf_eq_iff : controlOf t = controlOf t' ↔ SameControl t t' := by
  constructor
  · intro h
    obtain ⟨hpc, hregisters⟩ := Prod.mk.inj h
    refine ⟨(BitVec.toFin_inj.mp hpc).symm, ?_⟩
    have hvector : t'.registers.registers = t.registers.registers := by
      apply Vector.ext
      intro i hi
      exact (BitVec.toFin_inj.mp (congrFun hregisters ⟨i, hi⟩)).symm
    cases hfile : t.registers
    cases hfile' : t'.registers
    simp_all
  · rintro ⟨hpc, hregisters⟩
    simp [controlOf, hpc, hregisters]

theorem determines_controlOf (instructions : List Instruction) :
    Determines (nextTest instructions) controlOf := by
  intro s s' hsame
  rw [nextTest_congr (controlOf_eq_iff.mp hsame)]
  cases nextTest instructions s with
  | none => rfl
  | some r => exact congrArg some (controlOf_eq_iff.mpr (sameControl_movedFor s' r 1))

theorem running_iff_reached {iterations : Nat} :
    (∃ s, runLoop instructions iterations t = .running s) ↔
      ∃ s, threadAtTest instructions t iterations = some s := by
  constructor
  · rintro ⟨s, hrunning⟩
    have houtcome := runLoop_outcome instructions t iterations
    rw [hrunning] at houtcome
    cases houtcome with
    | running _ hreach => exact ⟨s, hreach⟩
  · rintro ⟨s, hreach⟩
    exact ⟨s, runLoop_threadAtTest hreach 0⟩

end Run

/-- Two tests of the loop condition find the same program counter and integer registers. -/
def Recurs (instructions : List Instruction) (t : Thread) : Prop :=
  ∃ i j s s', i < j ∧ threadAtTest instructions t i = some s ∧
    threadAtTest instructions t j = some s' ∧ SameControl s s'

/-- The results with which a call of `run` has ended. -/
inductive Ended (instructions : List Instruction) : RunResult → Prop
  | returned (s : Thread) : Ended instructions (.returned s)
  | threw (object : Thrown) (s : Thread) : Ended instructions (.threw object s)
  -- Only of a vector that no decoder made: it names a register that does not exist.
  | undefinedBehaviour (instr : Instruction) (hmem : instr ∈ instructions)
      (hbelow : ¬OperandsBelow instr) : Ended instructions .undefinedBehaviour

section Ends
variable {instructions : List Instruction} {t s : Thread} {iterations : Nat}

theorem ended_not_running (hended : Ended instructions (runLoop instructions iterations t)) :
    runLoop instructions iterations t ≠ .running s := by
  intro hrunning
  rw [hrunning] at hended
  cases hended

theorem ended_of_not_running (hstopped : ¬∃ s, runLoop instructions iterations t = .running s) :
    Ended instructions (runLoop instructions iterations t) := by
  cases hresult : runLoop instructions iterations t with
  | running s => exact absurd ⟨s, hresult⟩ hstopped
  | returned s => exact .returned s
  | threw object s => exact .threw object s
  | undefinedBehaviour =>
    by_contra hnamed
    refine runLoop_defined (fun instr hmem => ?_) iterations hresult
    by_contra hbelow
    exact hnamed (.undefinedBehaviour instr hmem hbelow)

theorem runs_forever_iff :
    (∀ iterations, ∃ s, runLoop instructions iterations t = .running s) ↔
      Recurs instructions t := by
  have hgoes : (∀ iterations, ∃ s, runLoop instructions iterations t = .running s) ↔
      ¬Stops (nextTest instructions) t := by
    rw [not_stops_iff]
    exact forall_congr' fun iterations => running_iff_reached
  rw [hgoes, not_stops_iff_recurs (determines_controlOf instructions)]
  constructor
  · rintro ⟨i, j, s, s', hlt, hfirst, hsecond, hsame⟩
    exact ⟨i, j, s, s', hlt, hfirst, hsecond, controlOf_eq_iff.mp hsame⟩
  · rintro ⟨i, j, s, s', hlt, hfirst, hsecond, hsame⟩
    exact ⟨i, j, s, s', hlt, hfirst, hsecond, controlOf_eq_iff.mpr hsame⟩

end Ends

/-- A call of `run` never ends exactly when it comes back to a program counter and integer
registers that it has been at before. In every other case it ends. -/
theorem run_recurs_or_ends (emulator : Emulator Handler) (t : Thread) :
    ((∀ iterations, ∃ s, emulator.run iterations t = .running s) ↔
      Recurs emulator.instructions t) ∧
    ((∃ iterations, Ended emulator.instructions (emulator.run iterations t)) ↔
      ¬Recurs emulator.instructions t) := by
  refine ⟨runs_forever_iff, ?_⟩
  rw [← runs_forever_iff, not_forall]
  constructor
  · rintro ⟨iterations, hended⟩
    exact ⟨iterations, fun ⟨s, hrunning⟩ => ended_not_running hended hrunning⟩
  · rintro ⟨iterations, hstopped⟩
    exact ⟨iterations, ended_of_not_running hstopped⟩

end RiscvEmulator.Guarantees
