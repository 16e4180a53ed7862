import RiscvEmulator.Source.Bits

/-!
# Base types and the hart state

Embeds src/riscv/base.hpp and base.cpp: the register file, the thread (hart) state
and its packed floating-point control register. A floating-point register is kept
as its 64-bit pattern, since no modelled function computes on it; `getTime` reads
the host clock and is left out.

A C++ call ends normally, by throwing, or without any defined meaning. `Thrown`
keeps what a handler can see of a thrown object: its exception class, and whether
it was thrown by value or as a pointer.
-/
namespace RiscvEmulator.Source

/-- The classes thrown by the repository, all derived from `std::exception`. -/
inductive StdException where
  | runtimeError (message : String)
  | invalidArgument (message : String)
  | badAlloc
  | lengthError
  | unknownInstruction (encoded : BitVec 32) (clazz : String)
  deriving DecidableEq, Repr

/-- Binary digits without leading zeros, as `std::format("{:b}", n)` prints them. -/
def formatBinary (n : Nat) : String := String.ofList (Nat.toDigits 2 n)

/-- The message of the exceptions whose text the repository chooses. -/
def StdException.what : StdException → String
  | .runtimeError message => message
  | .invalidArgument message => message
  | .badAlloc => "std::bad_alloc"
  | .lengthError => "cannot create std::vector larger than max_size()"
  | .unknownInstruction encoded clazz =>
    "Unknown instruction (class " ++ clazz ++ "): " ++ formatBinary encoded.toNat ++ " "

inductive Thrown where
  | value (exception : StdException)
  | pointer (exception : StdException)
  deriving DecidableEq, Repr

/-- `catch (std::exception const&)` matches an object thrown by value, not a pointer. -/
def Thrown.caughtAsStdException : Thrown → Bool
  | .value _ => true
  | .pointer _ => false

inductive Abort where
  | thrown (object : Thrown)
  | undefinedBehaviour
  deriving DecidableEq, Repr

/-- `throw exception;` inside code that may also run into undefined behaviour. -/
def throwValue {α : Type} (exception : StdException) : Except Abort α :=
  .error (.thrown (.value exception))

abbrev Byte := BitVec 8
abbrev Pointer := BitVec 64
abbrev Register := BitVec 64
abbrev RegisterIndex := BitVec 8
abbrev FloatRegister := BitVec 64

def registerCount : Nat := 32
def floatRegisterCount : Nat := 32

/-- `enum class FloatRoundingMode : uint8_t`; a cast can also give 5 or 6. -/
abbrev FloatRoundingMode := BitVec 8

inductive FloatExceptionFlags where
  | Inexact | Underflow | Overflow | DivideByZero | InvalidOperation
  deriving DecidableEq, Repr

def FloatExceptionFlags.bitIndex : FloatExceptionFlags → Nat
  | .Inexact => 0
  | .Underflow => 1
  | .Overflow => 2
  | .DivideByZero => 3
  | .InvalidOperation => 4

/-- Integer registers x0..x31. The array is private and only `set` writes it, so x0
holds 0 in every register file that exists. -/
structure RegisterFile where
  registers : Vector Register 32
  zero : registers[0] = 0

namespace RegisterFile

/-- A value-initialised register file. -/
def initial : RegisterFile := ⟨Vector.replicate 32 0, by simp⟩

/-- `operator[]`: unchecked, so an index past the array is undefined behaviour. -/
def get (file : RegisterFile) (index : RegisterIndex) : Except Abort Register :=
  if h : index.toNat < 32 then .ok file.registers[index.toNat] else .error .undefinedBehaviour

def set (file : RegisterFile) (index : RegisterIndex) (value : Register) :
    Except Abort RegisterFile :=
  if hzero : index = 0 then .ok file
  else if h : index.toNat < 32 then
    .ok {
      registers := file.registers.set index.toNat value
      zero := by
        have hne : index.toNat ≠ 0 := fun h0 => hzero (BitVec.eq_of_toNat_eq h0)
        rw [Vector.getElem_set_ne _ _ hne]
        exact file.zero }
  else .error .undefinedBehaviour

theorem get_ok (file : RegisterFile) {index : RegisterIndex} (h : index.toNat < registerCount) :
    ∃ value, file.get index = .ok value := by
  simp only [registerCount] at h
  simp [get, h]

theorem lt_of_get {file : RegisterFile} {index : RegisterIndex} {value : Register}
    (h : file.get index = .ok value) : index.toNat < registerCount := by
  unfold get at h
  split at h
  · assumption
  · cases h

theorem set_ok (file : RegisterFile) {index : RegisterIndex} (h : index.toNat < registerCount)
    (value : Register) : ∃ file', file.set index value = .ok file' := by
  unfold set
  split
  · exact ⟨_, rfl⟩
  · exact ⟨_, dif_pos h⟩

end RegisterFile

structure Thread where
  registers : RegisterFile := RegisterFile.initial
  floatRegisters : Vector FloatRegister floatRegisterCount := Vector.replicate floatRegisterCount 0
  programCounter : Register := 0
  dynamicFloatRoundingMode : FloatRoundingMode := 0
  floatExceptionFlags : BitVec 8 := 0
  cycleCounter : Register := 0

namespace Thread

def setFloatExceptionFlag (t : Thread) (flag : FloatExceptionFlags) (value : Bool) : Thread :=
  if value then { t with floatExceptionFlags := setBit t.floatExceptionFlags flag.bitIndex }
  else { t with floatExceptionFlags := clearBit t.floatExceptionFlags flag.bitIndex }

def getFloatExceptionFlag (t : Thread) (flag : FloatExceptionFlags) : Bool :=
  hasBit t.floatExceptionFlags flag.bitIndex

def getFloatControlStatusRegister (t : Thread) : Register :=
  (t.dynamicFloatRoundingMode.setWidth 64 <<< 5) ||| t.floatExceptionFlags.setWidth 64

def setFloatControlStatusRegister (t : Thread) (value : Register) : Thread :=
  { t with
    dynamicFloatRoundingMode := (getBits value 5 7).setWidth 8
    floatExceptionFlags := (getBits value 0 4).setWidth 8 }

def getInstructionIndex (t : Thread) : Pointer := t.programCounter / 4

def getNextProgramCounter (t : Thread) : Pointer := t.programCounter + 4

theorem getInstructionIndex_toNat (t : Thread) :
    t.getInstructionIndex.toNat = t.programCounter.toNat / 4 := by
  simp [getInstructionIndex, BitVec.toNat_udiv]

end Thread
end RiscvEmulator.Source
