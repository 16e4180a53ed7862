import RiscvEmulator.Guarantees.DecoderOutcomes
import RiscvEmulator.Guarantees.DecoderPrograms

/-!
# What the decoder throws

Every rejection is an exception thrown by value, which `catch (std::exception const&)`
handles, but for one statement of `decodeOpFP` that throws a pointer. `UncaughtWord`
says which words reach it.
-/
namespace RiscvEmulator.Guarantees
open Source Spec Library InstructionFormat WordBytes

/-- Whatever the call throws is handled by `catch (std::exception const&)`. -/
def Caught {α : Type} (result : Except Thrown α) : Prop :=
  ∀ thrown, result = .error thrown → thrown.caughtAsStdException = true

theorem caught_ok {α : Type} (a : α) : Caught (.ok a) := by
  intro thrown h
  cases h

/-- A word of UncaughtWord makes the decoder throw a pointer. -/
theorem decodeWord_uncaught {w : BitVec 32} (hw : UncaughtWord w) :
    decodeWord w = .error (.pointer (.unknownInstruction w "OP-FP")) := by
  have hop := hw.1
  have hlow : w.extractLsb' 0 2 = 0b11 := by
    rw [low_bits_eq, hop]
    rfl
  rw [decodeWord_of_low_bits hlow, (Dispatched.opFP hop).eq]
  exact decodeOpFP_uncaught w {} hw

theorem decodeWord_caught {w : BitVec 32} (hw : ¬UncaughtWord w) : Caught (decodeWord w) := by
  unfold decodeWord
  split
  · intro thrown h
    rw [← Except.error.inj h]
    rfl
  · intro thrown h
    rw [(outcome_decodeInstruction w {}).throws hw h]
    rfl

/-- The first word of the program that is rejected is one that makes `decodeOpFP` throw a
pointer. -/
def UncaughtProgram (program : List Byte) : Prop :=
  program.length % 4 = 0 ∧ ∃ before w after, words program = before ++ w :: after ∧
    (∀ v ∈ before, ∃ instr, decodeWord v = .ok instr) ∧ UncaughtWord w

theorem decodeInstructions_caught_iff (native : Endian) (program : List Byte) :
    Caught (decodeInstructions native program) ↔ ¬UncaughtProgram program := by
  constructor
  · rintro hcaught ⟨hlen, before, w, after, hsplit, hbefore, hw⟩
    have hthrow := (decodeInstructions_error_iff native program _).mpr
      (.inr ⟨hlen, before, w, after, hsplit, hbefore, decodeWord_uncaught hw⟩)
    cases hcaught _ hthrow
  · intro hprogram thrown hthrow
    rcases (decodeInstructions_error_iff native program thrown).mp hthrow with
      ⟨-, rfl⟩ | ⟨hlen, before, w, after, hsplit, hbefore, hw⟩
    · rfl
    · by_cases huncaught : UncaughtWord w
      · exact absurd ⟨hlen, before, w, after, hsplit, hbefore, huncaught⟩ hprogram
      · exact decodeWord_caught huncaught thrown hw

end RiscvEmulator.Guarantees
