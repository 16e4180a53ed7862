import RiscvEmulator.Guarantees.DecoderPrograms
import RiscvEmulator.Guarantees.DecoderRows

/-!
# Decoding undoes encoding on RV64IMA

A program of integer instructions with legal operands is read back from its canonical
bytes. FENCE words whose field is the one of FENCE.TSO or PAUSE are types of their own
in the source, so no decoder can give such a field back as a FENCE.
-/
namespace RiscvEmulator.Guarantees
open Source Spec Library InstructionFormat WordBytes

theorem matches_opcode {encoding : Encoding} {w : BitVec 32} (h : encoding.Matches w) :
    opcode w = encoding.fixedOpcode := by
  cases encoding with
  | u op => exact h
  | j op => exact h
  | _ => exact h.1

/-- Every row is an uncompressed encoding. -/
theorem fixedOpcode_low_bits (t : InstructionType) :
    (encodingOf t).fixedOpcode.extractLsb' 0 2 = 0b11 := by
  cases t <;> rfl

theorem matches_low_bits {t : InstructionType} {w : BitVec 32} (h : (encodingOf t).Matches w) :
    w.extractLsb' 0 2 = 0b11 := by
  rw [low_bits_eq, matches_opcode h, fixedOpcode_low_bits]

theorem immI_encode_fence {instr : Instruction} (htype : instr.type = .FENCE) :
    immI (encode instr) = instr.immediate.setWidth 12 := by
  unfold encode
  rw [htype]
  exact immI_packI ..

/-- The fields of FENCE.TSO and PAUSE. -/
def IsFenceHint (field : BitVec 32) : Prop := field = 0b100000110011 ∨ field = 0b000000010000

instance (field : BitVec 32) : Decidable (IsFenceHint field) := inferInstanceAs (Decidable (_ ∨ _))

theorem decodeWord_encode (instr : Instruction) (hint : IsInteger instr.type)
    (hlegal : Legal instr) (hfence : instr.type = .FENCE → ¬IsFenceHint instr.immediate) :
    decodeWord (encode instr) = .ok instr := by
  have hmatch : (encodingOf instr.type).Matches (encode instr) := matches_assemble ..
  have hfield : instr.type = .FENCE → immI (encode instr) ≠ 0b100000110011 ∧
      immI (encode instr) ≠ 0b000000010000 := by
    intro htype
    have hbound : instr.immediate.toNat < 2 ^ 12 := by
      have hformat := hlegal.2.2.2
      rw [htype] at hformat
      exact hformat.2
    have hwiden : ∀ field : BitVec 12, immI (encode instr) = field →
        instr.immediate = field.setWidth 32 := by
      intro field heq
      rw [← heq, immI_encode_fence htype, setWidth_roundtrip _ hbound]
    refine ⟨fun heq => ?_, fun heq => ?_⟩
    · exact hfence htype (.inl (hwiden _ heq))
    · exact hfence htype (.inr (hwiden _ heq))
  rw [decodeWord_of_low_bits (matches_low_bits hmatch), decode_row _ _ hint hmatch hfield,
    disassemble_assemble instr hint.usesFloatOp hlegal]

/-- Decoding the canonical bytes of an RV64IMA program gives the program back. -/
theorem decodeInstructions_encodeProgram (native : Endian) (instrs : List Instruction)
    (hint : ∀ instr ∈ instrs, IsInteger instr.type) (hlegal : ∀ instr ∈ instrs, Legal instr)
    (hfence : ∀ instr ∈ instrs, instr.type = .FENCE → ¬IsFenceHint instr.immediate) :
    decodeInstructions native (encodeProgram instrs) = .ok instrs := by
  rw [encodeProgram, decodeInstructions_wordBytes, ExceptList.mapM_ok_iff,
    List.forall₂_map_left_iff, List.forall₂_same]
  intro instr hmem
  exact decodeWord_encode instr (hint instr hmem) (hlegal instr hmem) (hfence instr hmem)

/-- The extreme immediates of every format, with an acquire/release pair. -/
theorem decodeInstructions_encodeProgram_extremes :
    decodeInstructions .little (encodeProgram
      [{ immediate := 0xFFFFF800, destinationRegister := 31, sourceRegister1 := 1, type := .ADDI },
       { immediate := 0xFFFFF000, sourceRegister1 := 1, sourceRegister2 := 31, type := .BGEU },
       { immediate := 0xFFF00000, destinationRegister := 1, type := .JAL },
       { immediate := 63, destinationRegister := 1, sourceRegister1 := 31, type := .SRAI },
       { immediate := 3, destinationRegister := 1, sourceRegister1 := 31, type := .LRD },
       { immediate := 0b000011111111, type := .FENCE }]) =
    .ok
      [{ immediate := 0xFFFFF800, destinationRegister := 31, sourceRegister1 := 1, type := .ADDI },
       { immediate := 0xFFFFF000, sourceRegister1 := 1, sourceRegister2 := 31, type := .BGEU },
       { immediate := 0xFFF00000, destinationRegister := 1, type := .JAL },
       { immediate := 63, destinationRegister := 1, sourceRegister1 := 31, type := .SRAI },
       { immediate := 3, destinationRegister := 1, sourceRegister1 := 31, type := .LRD },
       { immediate := 0b000011111111, type := .FENCE }] := by
  refine decodeInstructions_encodeProgram .little _ (by decide) ?_ (by decide)
  simp only [List.forall_mem_cons, List.not_mem_nil, false_implies, implies_true, and_true]
  refine ⟨?_, ?_, ?_, ?_, ?_, ?_⟩ <;> refine ⟨by decide, by decide, by decide, ?_⟩
  · exact ⟨rfl, by decide, by decide⟩
  · exact ⟨rfl, by decide, by decide, by decide⟩
  · exact ⟨rfl, rfl, by decide, by decide, by decide⟩
  · exact ⟨rfl, by decide⟩
  · exact ⟨rfl, by decide⟩
  · exact ⟨rfl, by decide⟩

/-- A FENCE with the field of PAUSE has the word of PAUSE, and is read back as one. -/
theorem decodeInstructions_fence_pause :
    ¬∀ (native : Endian) (instrs : List Instruction), (∀ instr ∈ instrs, IsInteger instr.type) →
      (∀ instr ∈ instrs, Legal instr) →
      decodeInstructions native (encodeProgram instrs) = .ok instrs := by
  intro h
  have hread := h .little [{ immediate := 0b000000010000, type := .FENCE }] (by decide) (by
    simp only [List.forall_mem_cons, List.not_mem_nil, false_implies, implies_true, and_true]
    exact ⟨by decide, by decide, by decide, rfl, by decide⟩)
  have hpause : decodeInstructions .little (encodeProgram
      [{ immediate := 0b000000010000, type := .FENCE }]) =
        .ok [{ immediate := 0b000000010000, type := .PAUSE }] := rfl
  rw [hpause] at hread
  cases hread

end RiscvEmulator.Guarantees
