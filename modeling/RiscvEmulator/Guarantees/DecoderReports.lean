import RiscvEmulator.Guarantees.DecoderThrows

/-!
# What a rejected program is told

The exception for a word that is rejected carries that word and the name of the sub-decoder
of its opcode, so it is a function of the word; a program is told of the first word it
would not be accepted without.
-/
namespace RiscvEmulator.Guarantees
open Source Spec Library InstructionFormat WordBytes

/-- The object thrown at a word that is rejected. -/
def rejectionOf (w : BitVec 32) : Thrown :=
  if w.extractLsb' 0 2 ≠ 0b11 then
    .value (.runtimeError "Compressed instructions are not supported")
  else if UncaughtWord w then .pointer (.unknownInstruction w (familyName (opcode w)))
  else .value (.unknownInstruction w (familyName (opcode w)))

/-- What is thrown at a word depends on the word only, and tells which word it was. -/
theorem decodeWord_error_iff {w : BitVec 32} {thrown : Thrown} :
    decodeWord w = .error thrown ↔
      (¬∃ instr, decodeWord w = .ok instr) ∧ thrown = rejectionOf w := by
  have hrejected {object : Thrown} (h : decodeWord w = .error object) : object = rejectionOf w := by
    unfold rejectionOf
    by_cases hlow : w.extractLsb' 0 2 = 0b11
    · have hdecode := decodeWord_of_low_bits hlow
      rw [if_neg (not_not.mpr hlow)]
      by_cases huncaught : UncaughtWord w
      · rw [if_pos huncaught]
        rw [decodeWord_uncaught huncaught] at h
        rw [← Except.error.inj h, huncaught.1]
        rfl
      · rw [if_neg huncaught]
        exact (outcome_decodeInstruction w {}).throws huncaught (hdecode.symm.trans h)
    · rw [decodeWord_compressed hlow] at h
      rw [if_pos hlow, Except.error.inj h]
  constructor
  · intro h
    refine ⟨?_, hrejected h⟩
    rintro ⟨instr, hok⟩
    rw [h] at hok
    cases hok
  · rintro ⟨hnone, rfl⟩
    cases h : decodeWord w with
    | ok instr => exact absurd ⟨instr, h⟩ hnone
    | error object => rw [hrejected h]

/-- A program is rejected for its size or for its first rejected word, and with the object
that is thrown at that word. -/
theorem program_rejection_iff (native : Endian) (program : List Byte) (thrown : Thrown) :
    decodeInstructions native program = .error thrown ↔
      (program.length % 4 ≠ 0 ∧ thrown = .value (.runtimeError
        ("Program size not divisible by 4: " ++ toString program.length))) ∨
      (program.length % 4 = 0 ∧ ∃ before w after, words program = before ++ w :: after ∧
        (∀ v ∈ before, ∃ instr, decodeWord v = .ok instr) ∧
        (¬∃ instr, decodeWord w = .ok instr) ∧ thrown = rejectionOf w) := by
  rw [decodeInstructions_error_iff]
  refine or_congr Iff.rfl (and_congr_right fun _ => ?_)
  refine exists₃_congr fun before w after => ?_
  rw [decodeWord_error_iff]

end RiscvEmulator.Guarantees
