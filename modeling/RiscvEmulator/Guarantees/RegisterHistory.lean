import RiscvEmulator.Guarantees.ProgramCounter
import RiscvEmulator.Library.WriteHistory

/-!
# What a run leaves in the registers

The registers of a thread, at any test of the loop condition, are those it started with
under the writes of the instructions executed so far: LUI, AUIPC, JAL and JALR write
their destination, from the program counter they were executed at, and the branches
write nothing. All else a thread holds stays, but for the cycle counter.
-/
namespace RiscvEmulator.Guarantees
open Source Source.Emulator Spec Library PartialRun ExceptList WriteHistory

variable {Handler : Type}

/-- The register an instruction at `pc` writes, and the value. -/
def written (pc : Register) (instr : Instruction) : Option (RegisterIndex × Register) :=
  match instr.type with
  | .LUI => some (instr.destinationRegister, offset instr)
  | .AUIPC => some (instr.destinationRegister, pc + offset instr)
  | .JAL | .JALR => some (instr.destinationRegister, pc + 4)
  | _ => none

/-- The program counter and the instruction of iteration `i`, counted from 0. -/
def executedAt (instructions : List Instruction) (t : Thread) (i : Nat) :
    Option (Register × Instruction) :=
  (threadAtTest instructions t i).bind fun s =>
    (instructions[s.programCounter.toNat / 4]?).map fun instr => (s.programCounter, instr)

/-- The register writes of the first `k` iterations, in order. -/
def writes (instructions : List Instruction) (t : Thread) (k : Nat) :
    List (RegisterIndex × Register) :=
  ((List.range k).filterMap (executedAt instructions t)).filterMap fun (pc, instr) =>
    written pc instr

section Step
variable {instructions : List Instruction} {instr : Instruction} {t t' : Thread}

/-- An instruction changes the registers and the program counter of a thread. -/
theorem execute_frame (h : execute instr t = .ok t') :
    ∃ registers programCounter,
      t' = { t with registers := registers, programCounter := programCounter } := by
  have branches {taken : Register → Register → Bool} (hbranch : branch taken instr t = .ok t') :
      ∃ registers programCounter,
        t' = { t with registers := registers, programCounter := programCounter } := by
    obtain ⟨value1, -, hbranch⟩ := bind_ok hbranch
    obtain ⟨value2, -, hbranch⟩ := bind_ok hbranch
    obtain rfl := Except.ok.inj hbranch
    split
    · exact ⟨t.registers, _, rfl⟩
    · exact ⟨t.registers, t.programCounter, rfl⟩
  unfold execute at h
  split at h
  case h_1 | h_2 | h_3 =>
    obtain ⟨registers, -, h⟩ := bind_ok h
    obtain rfl := Except.ok.inj h
    exact ⟨registers, _, rfl⟩
  case h_4 =>
    obtain ⟨registers, -, h⟩ := bind_ok h
    obtain ⟨base, -, h⟩ := bind_ok h
    obtain rfl := Except.ok.inj h
    exact ⟨registers, _, rfl⟩
  case h_11 => cases h
  all_goals exact branches h

/-- An iteration changes the cycle counter besides, by 1. -/
theorem iteration_frame (h : iteration instructions t = .ok t') :
    ∃ registers programCounter, t' = { t with
      registers := registers
      programCounter := programCounter
      cycleCounter := t.cycleCounter + 1 } := by
  unfold iteration at h
  dsimp only at h
  split at h
  next fetched _ =>
    obtain ⟨s, hexecute, h⟩ := bind_ok h
    obtain ⟨registers, programCounter, rfl⟩ := execute_frame hexecute
    obtain rfl := Except.ok.inj h
    exact ⟨registers, _, rfl⟩
  next => cases h

theorem written_of_comparison {compare : Register → Register → Bool}
    (h : comparison instr.type = some compare) (pc : Register) : written pc instr = none := by
  unfold written
  split
  case h_5 => rfl
  all_goals
    next htype =>
    rw [htype] at h
    cases h

/-- The registers after an instruction of the machine are those under its write. -/
theorem machine_registers {hart hart' : Hart} (h : hart.execute instr = some hart') :
    hart'.x = match written hart.programCounter instr with
      | some (rd, value) => write hart.x rd value
      | none => hart.x := by
  unfold Hart.execute at h
  split at h
  case h_5 =>
    obtain ⟨compare, hcompare, rfl⟩ := Option.map_eq_some_iff.mp h
    rw [written_of_comparison hcompare]
  all_goals
    next htype =>
    obtain rfl := Option.some.inj h
    rw [written, htype]

/-- One write, at a register that is not x0. -/
theorem write_eq_applyWrites (x : RegisterIndex → Register) (rd : RegisterIndex)
    (value : Register) {j : RegisterIndex} (hj : j ≠ 0) :
    write x rd value j = applyWrites x [(rd, value)] j := by
  rw [applyWrites_singleton, write]
  split
  · next hzero =>
    rw [hzero, Function.update_of_ne hj]
  · rfl

/-- What an iteration at `t` leaves in the registers other than x0. -/
theorem iteration_registers (h : iteration instructions t = .ok t') {j : RegisterIndex}
    (hj : j ≠ 0) :
    ∃ instr, instructions[t.programCounter.toNat / 4]? = some instr ∧
      read t'.registers j =
        applyWrites (read t.registers) (written t.programCounter instr).toList j := by
  obtain ⟨instr, hfetch, -, hart, hmachine, hregisters⟩ := iteration_ok h
  refine ⟨instr, hfetch, ?_⟩
  have hwritten := machine_registers hmachine
  change hart.x = match written t.programCounter instr with
    | some (rd, value) => write (read t.registers) rd value
    | none => read t.registers at hwritten
  rw [hregisters, hwritten]
  cases written t.programCounter instr with
  | none => rfl
  | some entry => exact write_eq_applyWrites _ _ _ hj

end Step

section Run
variable {instructions : List Instruction} {t t' : Thread} {k : Nat}

/-- The history grows by the write of the iteration. -/
theorem writes_succ {instr : Instruction} (hreach : threadAtTest instructions t k = some t')
    (hfetch : instructions[t'.programCounter.toNat / 4]? = some instr) :
    writes instructions t (k + 1) =
      writes instructions t k ++ (written t'.programCounter instr).toList := by
  have hexecuted : executedAt instructions t k = some (t'.programCounter, instr) := by
    rw [executedAt, hreach, Option.bind_some, hfetch, Option.map_some]
  unfold writes
  rw [List.range_succ, List.filterMap_append, List.filterMap_append]
  congr 1
  cases hwritten : written t'.programCounter instr with
  | none => simp [hexecuted, hwritten]
  | some entry => simp [hexecuted, hwritten]

/-- The registers at any test are those at the start under the history of writes. -/
theorem registers_at_test (hreach : threadAtTest instructions t k = some t') {j : RegisterIndex}
    (hj : j ≠ 0) :
    read t'.registers j = applyWrites (read t.registers) (writes instructions t k) j := by
  induction k generalizing t' with
  | zero =>
    obtain rfl := Option.some.inj hreach
    rfl
  | succ k ih =>
    obtain ⟨s, hprev, hnext⟩ := runFor_succ_iff.mp hreach
    obtain ⟨-, hiter⟩ := nextTest_eq_some.mp hnext
    obtain ⟨instr, hfetch, hread⟩ := iteration_registers hiter hj
    have hbefore := ih hprev
    rw [writes_succ hprev hfetch, applyWrites_append, hread, applyWrites_eq, applyWrites_eq,
      hbefore]

/-- What a run does not touch, and the counter it drives. -/
theorem frame_at_test (hreach : threadAtTest instructions t k = some t') :
    ∃ registers programCounter, t' = { t with
      registers := registers
      programCounter := programCounter
      cycleCounter := t.cycleCounter + BitVec.ofNat 64 k } := by
  induction k generalizing t' with
  | zero =>
    obtain rfl := Option.some.inj hreach
    exact ⟨t.registers, t.programCounter, by simp⟩
  | succ k ih =>
    obtain ⟨s, hprev, hnext⟩ := runFor_succ_iff.mp hreach
    obtain ⟨-, hiter⟩ := nextTest_eq_some.mp hnext
    obtain ⟨_, _, rfl⟩ := ih hprev
    obtain ⟨registers, programCounter, rfl⟩ := iteration_frame hiter
    refine ⟨registers, programCounter, ?_⟩
    have hcount : BitVec.ofNat 64 (k + 1) = BitVec.ofNat 64 k + 1 := by
      rw [BitVec.ofNat_add]
      rfl
    simp [hcount, BitVec.add_assoc]

end Run

/-- At every test of the loop condition, each register but x0 holds the value of the last
write of the run, the cycle counter has counted the iterations, and the rest of the
thread and the emulator are as they were. -/
theorem run_registers_and_frame (emulator emulator' : Emulator Handler) (thread thread' : Thread)
    (k : Nat) (hreach : stateAtTest emulator thread k = some (emulator', thread')) :
    read thread'.registers 0 = 0 ∧
    (∀ j, j ≠ 0 → read thread'.registers j =
      (lastWrite j (writes emulator.instructions thread k)).getD (read thread.registers j)) ∧
    thread'.cycleCounter = thread.cycleCounter + BitVec.ofNat 64 k ∧
    thread'.floatRegisters = thread.floatRegisters ∧
    thread'.dynamicFloatRoundingMode = thread.dynamicFloatRoundingMode ∧
    thread'.floatExceptionFlags = thread.floatExceptionFlags ∧
    emulator'.memory = emulator.memory ∧ emulator'.instructions = emulator.instructions := by
  obtain ⟨rfl, hthread⟩ := stateAtTest_eq_some hreach
  have hregisters : ∀ j, j ≠ 0 → read thread'.registers j =
      (lastWrite j (writes emulator'.instructions thread k)).getD (read thread.registers j) := by
    intro j hj
    rw [registers_at_test hthread hj, applyWrites_eq]
  obtain ⟨registers, programCounter, rfl⟩ := frame_at_test hthread
  exact ⟨read_zero _, hregisters, rfl, rfl, rfl, rfl, rfl, rfl⟩

/-- LUI and then AUIPC at 4, both to x5. -/
def upperProgram : Emulator Unit := (Emulator.new 0 0).setInstructions
  [{ immediate := 0x1000, destinationRegister := 5, type := .LUI },
    { immediate := 0x2000, destinationRegister := 5, type := .AUIPC }]

theorem run_registers_and_frame_upper :
    ∃ state, stateAtTest upperProgram {} 2 = some state ∧ read state.2.registers 5 = 0x2004 := by
  refine ⟨_, rfl, ?_⟩
  exact ((run_registers_and_frame upperProgram _ {} _ 2 rfl).2.1 5 (by decide)).trans rfl

end RiscvEmulator.Guarantees
