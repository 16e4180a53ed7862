import Mathlib.Logic.Function.Basic
import RiscvEmulator.Library.PartialRun
import RiscvEmulator.Source.Arena
import RiscvEmulator.Source.Instruction

/-!
# The emulator

Embeds src/riscv/emulator.hpp and emulator.cpp. A custom syscall handler is a value of
an arbitrary type `Handler` and `invoke` is its call operator. The loop of `run` may
not end, so `run` takes the number of iterations it may start. `startTime`, which only
`getTime` reads, is left out.
-/
namespace RiscvEmulator.Source
open Library.PartialRun

inductive CustomSyscallStatus where
  | Continue | Interrupt
  deriving DecidableEq, Repr

/-- `BuiltinSyscall::Max`, the last number reserved for built-in syscalls. -/
def BuiltinSyscall.Max : BitVec 64 := 127

structure Emulator (Handler : Type) where
  memory : Arena
  instructions : List Instruction := []
  customSyscallHandlers : BitVec 64 → Option Handler := fun _ => none

/-- How a call of `run` stands after a number of iterations. -/
inductive RunResult where
  | returned (thread : Thread)
  | threw (object : Thrown) (thread : Thread)
  | undefinedBehaviour
  | running (thread : Thread)

namespace Emulator
variable {Handler : Type}

def new (base memorySizeBytes : Nat) : Emulator Handler where
  memory := Arena.new base memorySizeBytes

def setInstructions (emulator : Emulator Handler) (newInstructions : List Instruction) :
    Emulator Handler := { emulator with instructions := newInstructions }

def registerCustomSyscallHandler (emulator : Emulator Handler) (syscallNumber : BitVec 64)
    (handler : Handler) : Except Thrown (Emulator Handler) :=
  if syscallNumber > BuiltinSyscall.Max then
    .error (.value (.invalidArgument
      "registered syscall number must be > BuiltinSyscall::Max"))
  else .ok { emulator with
    customSyscallHandlers :=
      Function.update emulator.customSyscallHandlers syscallNumber (some handler) }

def unregisterCustomSyscallHandler (emulator : Emulator Handler) (syscallNumber : BitVec 64) :
    Emulator Handler :=
  { emulator with
    customSyscallHandlers := Function.update emulator.customSyscallHandlers syscallNumber none }

/-- The thread and the emulator are what the call leaves behind, also when the handler throws.
The status the handler returns is not used. -/
def performCustomSyscall
    (invoke : Handler → Thread → Emulator Handler →
      Except Abort CustomSyscallStatus × Thread × Emulator Handler)
    (emulator : Emulator Handler) (thread : Thread) (syscallNumber : BitVec 64) :
    Except Abort Unit × Thread × Emulator Handler :=
  match emulator.customSyscallHandlers syscallNumber with
  | some handler =>
    let (result, thread, emulator) := invoke handler thread emulator
    (result.map fun _ => (), thread, emulator)
  | none => (.ok (), thread, emulator)

/-- `t.programCounter += instr.immediate`. -/
def transfer (instr : Instruction) (t : Thread) : Thread :=
  { t with programCounter := t.programCounter + instr.immediate.signExtend 64 }

/-- The six branch cases, which differ in the comparison. -/
def branch (taken : Register → Register → Bool) (instr : Instruction) (t : Thread) :
    Except Abort Thread := do
  let value1 ← t.registers.get instr.sourceRegister1
  let value2 ← t.registers.get instr.sourceRegister2
  return if taken value1 value2 then transfer instr t else t

/-- The `switch` of `run`. Its `break` and `continue` both lead to the increment
expression of the loop. -/
def execute (instr : Instruction) (t : Thread) : Except Abort Thread :=
  match instr.type with
  | .LUI => do
    let registers ← t.registers.set instr.destinationRegister (instr.immediate.signExtend 64)
    return { t with registers := registers }
  | .AUIPC => do
    let registers ← t.registers.set instr.destinationRegister
      (t.programCounter + instr.immediate.signExtend 64)
    return { t with registers := registers }
  | .JAL => do
    let registers ← t.registers.set instr.destinationRegister t.getNextProgramCounter
    return transfer instr { t with registers := registers }
  | .JALR => do
    let registers ← t.registers.set instr.destinationRegister t.getNextProgramCounter
    let base ← registers.get instr.sourceRegister1
    return { t with
      registers := registers
      programCounter := (base + instr.immediate.signExtend 64) &&& ~~~1#64 }
  | .BEQ => branch (fun a b => a == b) instr t
  | .BNE => branch (fun a b => a != b) instr t
  | .BLT => branch (fun a b => a.slt b) instr t
  | .BGE => branch (fun a b => b.sle a) instr t
  | .BLTU => branch (fun a b => a.ult b) instr t
  | .BGEU => branch (fun a b => b.ule a) instr t
  | _ => throwValue (.runtimeError "Unsupported instruction")

/-- The body of the loop and its increment expression. -/
def iteration (instructions : List Instruction) (t : Thread) : Except Abort Thread :=
  let t := { t with cycleCounter := t.cycleCounter + 1 }
  match instructions[t.getInstructionIndex.toNat]? with
  | some instr => do
    let t ← execute instr t
    return { t with programCounter := t.getNextProgramCounter }
  | none => .error .undefinedBehaviour

/-- The condition of the loop. -/
def loopTest (instructions : List Instruction) (t : Thread) : Bool :=
  t.getInstructionIndex.toNat < instructions.length

def runLoop (instructions : List Instruction) : Nat → Thread → RunResult
  | 0, t => .running t
  | iterations + 1, t =>
    if loopTest instructions t then
      match iteration instructions t with
      | .ok t => runLoop instructions iterations t
      | .error (.thrown object) => .threw object { t with cycleCounter := t.cycleCounter + 1 }
      | .error .undefinedBehaviour => .undefinedBehaviour
    else .returned t

def run (emulator : Emulator Handler) (iterations : Nat) (thread : Thread) : RunResult :=
  runLoop emulator.instructions iterations thread

/-- From one test of the loop condition to the next, if there is a next one. -/
def nextTest (instructions : List Instruction) (t : Thread) : Option Thread :=
  if loopTest instructions t then (iteration instructions t).toOption else none

/-- The thread at the `k`-th test of the loop condition, counted from 0. -/
def threadAtTest (instructions : List Instruction) (t : Thread) (k : Nat) : Option Thread :=
  runFor (nextTest instructions) t k

/-- The emulator with the thread, from one test to the next: no statement of `run` assigns
to a member of the emulator. -/
def nextState (state : Emulator Handler × Thread) : Option (Emulator Handler × Thread) :=
  (nextTest state.1.instructions state.2).map fun thread => (state.1, thread)

/-- The emulator and the thread at the `k`-th test. -/
def stateAtTest (emulator : Emulator Handler) (thread : Thread) (k : Nat) :
    Option (Emulator Handler × Thread) := runFor nextState (emulator, thread) k

theorem nextTest_eq_some {instructions : List Instruction} {t t' : Thread} :
    nextTest instructions t = some t' ↔
      loopTest instructions t = true ∧ iteration instructions t = .ok t' := by
  unfold nextTest
  split
  · next htest =>
    cases hiter : iteration instructions t with
    | ok s => simp [Except.toOption, htest]
    | error e => simp [Except.toOption]
  · next htest => simp [htest]

/-- A run that reaches the `k`-th test goes on from the thread at that test. -/
theorem runLoop_threadAtTest {instructions : List Instruction} {t t' : Thread} {k : Nat}
    (hreach : threadAtTest instructions t k = some t') (iterations : Nat) :
    runLoop instructions (k + iterations) t = runLoop instructions iterations t' := by
  induction k generalizing t' iterations with
  | zero =>
    obtain rfl := Option.some.inj hreach
    rw [Nat.zero_add]
  | succ k ih =>
    obtain ⟨s, hprev, hstep⟩ := runFor_succ_iff.mp hreach
    obtain ⟨htest, hiter⟩ := nextTest_eq_some.mp hstep
    rw [Nat.add_right_comm, Nat.add_assoc, ih hprev, runLoop, if_pos htest, hiter]

/-- How a run of so many iterations stands, and the test it came to. -/
inductive Outcome (instructions : List Instruction) (t : Thread) (iterations : Nat) :
    RunResult → Prop where
  | returned (k : Nat) (s : Thread) (hk : k < iterations)
    (hreach : threadAtTest instructions t k = some s) (htest : loopTest instructions s = false) :
    Outcome instructions t iterations (.returned s)
  | threw (k : Nat) (s : Thread) (object : Thrown) (hk : k < iterations)
    (hreach : threadAtTest instructions t k = some s) (htest : loopTest instructions s = true)
    (hiter : iteration instructions s = .error (.thrown object)) :
    Outcome instructions t iterations
      (.threw object { s with cycleCounter := s.cycleCounter + 1 })
  | undefinedBehaviour (k : Nat) (s : Thread) (hk : k < iterations)
    (hreach : threadAtTest instructions t k = some s) (htest : loopTest instructions s = true)
    (hiter : iteration instructions s = .error .undefinedBehaviour) :
    Outcome instructions t iterations .undefinedBehaviour
  | running (s : Thread) (hreach : threadAtTest instructions t iterations = some s) :
    Outcome instructions t iterations (.running s)

/-- The outcome after one iteration more at the front. -/
theorem Outcome.cons {instructions : List Instruction} {t s : Thread} {iterations : Nat}
    {result : RunResult} (hnext : nextTest instructions t = some s)
    (h : Outcome instructions s iterations result) :
    Outcome instructions t (iterations + 1) result := by
  have hshift (k : Nat) : threadAtTest instructions t (k + 1) = threadAtTest instructions s k :=
    runFor_succ_of_first hnext
  cases h with
  | returned k last hk hreach htest =>
    exact .returned (k + 1) last (by omega) ((hshift k).trans hreach) htest
  | threw k last object hk hreach htest hiter =>
    exact .threw (k + 1) last object (by omega) ((hshift k).trans hreach) htest hiter
  | undefinedBehaviour k last hk hreach htest hiter =>
    exact .undefinedBehaviour (k + 1) last (by omega) ((hshift k).trans hreach) htest hiter
  | running last hreach => exact .running last ((hshift iterations).trans hreach)

theorem runLoop_outcome (instructions : List Instruction) (t : Thread) (iterations : Nat) :
    Outcome instructions t iterations (runLoop instructions iterations t) := by
  induction iterations generalizing t with
  | zero => exact .running t rfl
  | succ iterations ih =>
    rw [runLoop]
    split
    · next htest =>
      split
      · next s hiter => exact (ih s).cons (nextTest_eq_some.mpr ⟨htest, hiter⟩)
      · next object hiter => exact .threw 0 t object (by omega) rfl htest hiter
      · next hiter => exact .undefinedBehaviour 0 t (by omega) rfl htest hiter
    · next htest => exact .returned 0 t (by omega) rfl (Bool.eq_false_iff.mpr htest)

/-- A run leaves the emulator alone and takes the thread from test to test. -/
theorem stateAtTest_eq_some {emulator emulator' : Emulator Handler} {thread thread' : Thread}
    {k : Nat} (h : stateAtTest emulator thread k = some (emulator', thread')) :
    emulator' = emulator ∧ threadAtTest emulator.instructions thread k = some thread' := by
  induction k generalizing emulator' thread' with
  | zero =>
    obtain ⟨rfl, rfl⟩ := Prod.mk.inj (Option.some.inj h)
    exact ⟨rfl, rfl⟩
  | succ k ih =>
    obtain ⟨⟨before, s⟩, hprev, hstep⟩ := runFor_succ_iff.mp h
    obtain ⟨rfl, hreach⟩ := ih hprev
    obtain ⟨s', hnext, hstate⟩ := Option.map_eq_some_iff.mp hstep
    obtain ⟨rfl, rfl⟩ := Prod.mk.inj hstate
    exact ⟨rfl, runFor_succ_of hreach hnext⟩

end Emulator
end RiscvEmulator.Source
