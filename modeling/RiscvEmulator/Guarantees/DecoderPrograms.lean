import RiscvEmulator.Library.ExceptList
import RiscvEmulator.Library.WordBytes
import RiscvEmulator.Source.DecoderFields

/-!
# Decoding a program word by word

`decodeInstructions` reads a byte string four bytes at a time. It is the map of one
function, `decodeWord`, over the words of the string, on a host of either byte order;
what it accepts and where it stops then follow from the map alone.
-/
namespace RiscvEmulator.Guarantees
open Source Library WordBytes ExceptList

/-- One iteration of the decoding loop, as a function of the word it reads. -/
def decodeWord (w : BitVec 32) : Except Thrown Instruction :=
  if isEncodingCompressed (w.extractLsb' 0 8) then
    .error (.value (.runtimeError "Compressed instructions are not supported"))
  else decodeInstruction {} w

theorem lowestByte_wordOf (b0 b1 b2 b3 : Byte) : (wordOf b0 b1 b2 b3).extractLsb' 0 8 = b0 :=
  BitVec.extractLsb'_append_eq_right

theorem decodeLoop_eq (native : Endian) (program : List Byte) :
    decodeLoop native program = (words program).mapM decodeWord := by
  fun_induction words program with
  | case1 b0 b1 b2 b3 rest ih =>
    have hword : valueU32 native b0 b1 b2 b3 = wordOf b0 b1 b2 b3 := valueU32_native native ..
    rw [decodeLoop, List.mapM_cons, decodeWord, lowestByte_wordOf, hword, ih]
    split
    · rfl
    · rfl
  | case2 program hshort =>
    rw [decodeLoop]
    · rfl
    · exact hshort

theorem decodeInstructions_eq (native : Endian) (program : List Byte)
    (hlen : program.length % 4 = 0) :
    decodeInstructions native program = (words program).mapM decodeWord := by
  rw [decodeInstructions, if_neg (not_not.mpr hlen), decodeLoop_eq]

/-- An accepted program is a whole number of words, each decoded on its own. -/
theorem decodeInstructions_ok_iff (native : Endian) (program : List Byte)
    (instrs : List Instruction) :
    decodeInstructions native program = .ok instrs ↔
      program.length % 4 = 0 ∧
        List.Forall₂ (fun w instr => decodeWord w = .ok instr) (words program) instrs := by
  constructor
  · intro h
    have hlen : program.length % 4 = 0 := by
      by_contra hodd
      rw [decodeInstructions, if_pos hodd] at h
      cases h
    rw [decodeInstructions_eq native program hlen] at h
    exact ⟨hlen, mapM_ok_iff.mp h⟩
  · rintro ⟨hlen, hall⟩
    rw [decodeInstructions_eq native program hlen]
    exact mapM_ok_iff.mpr hall

/-- What `decodeInstructions` throws: the size error, or the error of the first word
that is rejected. -/
theorem decodeInstructions_error_iff (native : Endian) (program : List Byte) (thrown : Thrown) :
    decodeInstructions native program = .error thrown ↔
      (program.length % 4 ≠ 0 ∧ thrown = .value (.runtimeError
        ("Program size not divisible by 4: " ++ toString program.length))) ∨
      (program.length % 4 = 0 ∧ ∃ before w after, words program = before ++ w :: after ∧
        (∀ v ∈ before, ∃ instr, decodeWord v = .ok instr) ∧ decodeWord w = .error thrown) := by
  by_cases hlen : program.length % 4 = 0
  · rw [decodeInstructions_eq native program hlen, mapM_error_iff]
    constructor
    · exact fun h => .inr ⟨hlen, h⟩
    · rintro (⟨hodd, -⟩ | ⟨-, h⟩)
      · exact absurd hlen hodd
      · exact h
  · rw [decodeInstructions, if_pos hlen]
    constructor
    · intro h
      cases h
      exact .inl ⟨hlen, rfl⟩
    · rintro (⟨-, rfl⟩ | ⟨heven, -⟩)
      · rfl
      · exact absurd heven hlen

/-- Laying words out and decoding the bytes maps `decodeWord` over the words. -/
theorem decodeInstructions_wordBytes (native : Endian) (ws : List (BitVec 32)) :
    decodeInstructions native (ws.flatMap wordBytes) = ws.mapM decodeWord := by
  have hlen : (ws.flatMap wordBytes).length % 4 = 0 := by
    rw [length_flatMap]
    omega
  rw [decodeInstructions_eq native _ hlen, words_flatMap]

/-- The mask of the lowest byte is the two low bits of the word. -/
theorem isEncodingCompressed_iff {w : BitVec 32} :
    isEncodingCompressed (w.extractLsb' 0 8) = true ↔ w.extractLsb' 0 2 ≠ 0b11 := by
  have hmask : (w.extractLsb' 0 8 &&& 0b11) = (w.extractLsb' 0 2).setWidth 8 := by
    apply BitVec.eq_of_getLsbD_eq
    intro i hi
    simp only [BitVec.getLsbD_and, BitVec.getLsbD_extractLsb', BitVec.getLsbD_setWidth]
    interval_cases i <;> simp
  rw [isEncodingCompressed, hmask, bne_iff_ne]
  generalize w.extractLsb' 0 2 = low
  revert low
  decide

/-- A word whose two low bits are set is not taken for a compressed instruction. -/
theorem decodeWord_of_low_bits {w : BitVec 32} (hlow : w.extractLsb' 0 2 = 0b11) :
    decodeWord w = decodeInstruction {} w := by
  rw [decodeWord, if_neg (fun hcompressed => isEncodingCompressed_iff.mp hcompressed hlow)]

/-- Every other word is. -/
theorem decodeWord_compressed {w : BitVec 32} (hlow : w.extractLsb' 0 2 ≠ 0b11) :
    decodeWord w = .error (.value (.runtimeError "Compressed instructions are not supported")) := by
  rw [decodeWord, if_pos (isEncodingCompressed_iff.mpr hlow)]

/-- A compressed word is never decoded. -/
theorem decodeWord_ok_low_bits {w : BitVec 32} {instr : Instruction}
    (h : decodeWord w = .ok instr) :
    w.extractLsb' 0 2 = 0b11 ∧ decodeInstruction {} w = .ok instr := by
  by_cases hlow : w.extractLsb' 0 2 = 0b11
  · exact ⟨hlow, (decodeWord_of_low_bits hlow).symm.trans h⟩
  · rw [decodeWord_compressed hlow] at h
    cases h

/-- What holds of every instruction the decoder accepts holds of every instruction of a program. -/
theorem forall_decoded {native : Endian} {program : List Byte} {instrs : List Instruction}
    {P : Instruction → Prop} (haccept : decodeInstructions native program = .ok instrs)
    (hword : ∀ w r, decodeInstruction {} w = .ok r → P r) : ∀ instr ∈ instrs, P instr := by
  obtain ⟨-, hall⟩ := (decodeInstructions_ok_iff _ _ _).mp haccept
  intro instr hmem
  obtain ⟨i, hi, rfl⟩ := List.getElem_of_mem hmem
  have hdecoded := hall.get (by rw [hall.length_eq]; exact hi) hi
  exact hword _ _ (decodeWord_ok_low_bits hdecoded).2

end RiscvEmulator.Guarantees
