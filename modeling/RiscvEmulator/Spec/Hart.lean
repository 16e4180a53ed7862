import Mathlib.Logic.Function.Basic
import RiscvEmulator.Library.PartialRun
import RiscvEmulator.Source.Instruction

/-!
# The RV64I control-flow machine

The hart of the RISC-V specification on LUI, AUIPC, the jumps and the branches: a
program counter and the integer registers, and what one instruction makes of them. It
stops at an instruction of any other type.
Nothing here is taken from the emulator's loop but its way of finding an instruction,
by the program counter divided by 4. `RegisterFile.read` is the bridge to the source:
the registers of a thread as the specification sees them.
-/
namespace RiscvEmulator.Spec
open Source Library.PartialRun

/-- A hart: x0 is a register like the others, since no write changes it. -/
@[ext] structure Hart where
  programCounter : Register
  x : RegisterIndex → Register

/-- A register write, which x0 ignores. -/
def write (x : RegisterIndex → Register) (rd : RegisterIndex) (value : Register) :
    RegisterIndex → Register := if rd = 0 then x else Function.update x rd value

/-- The comparison a branch makes between rs1 and rs2. -/
def comparison : InstructionType → Option (Register → Register → Bool)
  | .BEQ => some fun a b => decide (a = b)
  | .BNE => some fun a b => decide (a ≠ b)
  | .BLT => some fun a b => decide (a.toInt < b.toInt)
  | .BGE => some fun a b => decide (b.toInt ≤ a.toInt)
  | .BLTU => some fun a b => decide (a.toNat < b.toNat)
  | .BGEU => some fun a b => decide (b.toNat ≤ a.toNat)
  | _ => none

/-- Whether the instruction is a branch that is taken. -/
def taken (instr : Instruction) (x : RegisterIndex → Register) : Bool :=
  (comparison instr.type).any fun compare =>
    compare (x instr.sourceRegister1) (x instr.sourceRegister2)

/-- The sign-extended offset. -/
def offset (instr : Instruction) : Register := instr.immediate.signExtend 64

/-- The address with its lowest bit cleared. -/
def clearLowest (address : Register) : Register := address &&& ~~~1#64

namespace Hart

/-- One instruction: a transfer goes to its target, LUI and AUIPC to the next word. -/
def execute (instr : Instruction) (hart : Hart) : Option Hart :=
  let pc := hart.programCounter
  match instr.type with
  | .LUI => some ⟨pc + 4, write hart.x instr.destinationRegister (offset instr)⟩
  | .AUIPC => some ⟨pc + 4, write hart.x instr.destinationRegister (pc + offset instr)⟩
  | .JAL => some ⟨pc + offset instr, write hart.x instr.destinationRegister (pc + 4)⟩
  | .JALR =>
    some ⟨clearLowest (hart.x instr.sourceRegister1 + offset instr),
      write hart.x instr.destinationRegister (pc + 4)⟩
  | type =>
    (comparison type).map fun compare =>
      ⟨if compare (hart.x instr.sourceRegister1) (hart.x instr.sourceRegister2) then
        pc + offset instr else pc + 4, hart.x⟩

def step (instructions : List Instruction) (hart : Hart) : Option Hart :=
  (instructions[hart.programCounter.toNat / 4]?).bind fun instr => hart.execute instr

/-- The hart after `k` instructions. -/
def after (instructions : List Instruction) (hart : Hart) (k : Nat) : Option Hart :=
  runFor (step instructions) hart k

end Hart

/-- The registers of the source as the specification sees them. -/
def read (file : RegisterFile) (index : RegisterIndex) : Register :=
  if h : index.toNat < 32 then file.registers[index.toNat] else 0

/-- What the specification sees of a thread. -/
def hartOf (t : Thread) : Hart := ⟨t.programCounter, read t.registers⟩

theorem read_of_get {file : RegisterFile} {index : RegisterIndex} {value : Register}
    (h : file.get index = .ok value) : read file index = value := by
  unfold RegisterFile.get at h
  split at h
  · next hlt =>
    rw [read, dif_pos hlt]
    exact Except.ok.inj h
  · cases h

/-- The source's register write is the specification's. -/
theorem read_of_set {file file' : RegisterFile} {rd : RegisterIndex} {value : Register}
    (h : file.set rd value = .ok file') : read file' = write (read file) rd value := by
  unfold RegisterFile.set at h
  split at h
  · next hzero =>
    rw [write, if_pos hzero, ← Except.ok.inj h]
  · next hzero =>
    rw [write, if_neg hzero]
    split at h
    · next hlt =>
      rw [← Except.ok.inj h]
      funext index
      by_cases hindex : index = rd
      · subst hindex
        rw [Function.update_self, read, dif_pos hlt, Vector.getElem_set_self]
      · rw [Function.update_of_ne hindex]
        unfold read
        split
        · have hne : rd.toNat ≠ index.toNat := fun heq => hindex (BitVec.eq_of_toNat_eq heq.symm)
          exact Vector.getElem_set_ne hlt _ hne
        · rfl
    · cases h

theorem read_zero (file : RegisterFile) : read file 0 = 0 := file.zero

end RiscvEmulator.Spec
