import RiscvEmulator.Guarantees.DecoderPrograms

/-!
# Decoding is compositional

A program is accepted exactly when each of its words is, and an instruction is the
decoding of its own four bytes: no state goes from one iteration of the decoding loop
to the next. The run loop's index, the program counter divided by 4, rests on this.
-/
namespace RiscvEmulator.Guarantees
open Source Library WordBytes ExceptList

variable {native : Endian} {program : List Byte} {instrs : List Instruction}

/-- A program whose first part is whole words decodes part by part. -/
theorem decodeInstructions_append {first : List Byte} (second : List Byte)
    (hlen : first.length % 4 = 0) :
    decodeInstructions native (first ++ second) = .ok instrs ↔
      ∃ instrs₁ instrs₂, decodeInstructions native first = .ok instrs₁ ∧
        decodeInstructions native second = .ok instrs₂ ∧ instrs = instrs₁ ++ instrs₂ := by
  have hsize : (first ++ second).length % 4 = second.length % 4 := by
    rw [List.length_append]
    omega
  by_cases hsecond : second.length % 4 = 0
  · rw [decodeInstructions_eq native _ (hsize.trans hsecond), words_append second hlen,
      decodeInstructions_eq native first hlen, decodeInstructions_eq native second hsecond]
    exact mapM_append_ok_iff
  · constructor
    · intro h
      exact absurd (hsize ▸ ((decodeInstructions_ok_iff _ _ _).mp h).1) hsecond
    · rintro ⟨-, instrs₂, -, h, -⟩
      exact absurd ((decodeInstructions_ok_iff _ _ _).mp h).1 hsecond

/-- The word whose lowest byte is at `offset`, as the loop reads it. -/
def wordAt (native : Endian) (program : List Byte) (offset : Nat)
    (h : offset + 3 < program.length) : BitVec 32 :=
  valueU32 native program[offset] program[offset + 1] program[offset + 2] program[offset + 3]

theorem decodeWord_wordAt (i : Nat) (hi : i < (words program).length)
    (h : 4 * i + 3 < program.length) {instr : Instruction} :
    decodeWord (words program)[i] = .ok instr ↔
      isEncodingCompressed program[4 * i] = false ∧
        decodeInstruction {} (wordAt native program (4 * i) h) = .ok instr := by
  have hword : (words program)[i] = wordAt native program (4 * i) h := by
    rw [words_getElem program i hi h, wordAt, valueU32_native]
    rfl
  have hlowest : (words program)[i].extractLsb' 0 8 = program[4 * i] := by
    rw [words_getElem program i hi h, lowestByte_wordOf]
  rw [decodeWord, hlowest, hword]
  cases isEncodingCompressed program[4 * i] with
  | true => simp
  | false => simp

/-- What is accepted: whole words, none compressed, each accepted on its own. -/
theorem decodeInstructions_accepts_iff :
    (∃ instrs, decodeInstructions native program = .ok instrs) ↔
      program.length % 4 = 0 ∧
        ∀ i, (h : 4 * i + 3 < program.length) → isEncodingCompressed program[4 * i] = false ∧
          ∃ instr, decodeInstruction {} (wordAt native program (4 * i) h) = .ok instr := by
  by_cases hlen : program.length % 4 = 0
  · have hcount := length_words program
    rw [decodeInstructions_eq native program hlen, mapM_accepts_iff, List.forall_mem_iff_getElem]
    constructor
    · intro h
      refine ⟨hlen, fun i hi => ?_⟩
      obtain ⟨instr, hword⟩ := h i (by omega)
      obtain ⟨hfull, hdecode⟩ := (decodeWord_wordAt i (by omega) hi).mp hword
      exact ⟨hfull, instr, hdecode⟩
    · rintro ⟨-, h⟩ i hi
      obtain ⟨hfull, instr, hdecode⟩ := h i (by omega)
      exact ⟨instr, (decodeWord_wordAt i hi (by omega)).mpr ⟨hfull, hdecode⟩⟩
  · constructor
    · rintro ⟨instrs, h⟩
      exact absurd ((decodeInstructions_ok_iff _ _ _).mp h).1 hlen
    · rintro ⟨heven, -⟩
      exact absurd heven hlen

theorem length_decodeInstructions (haccept : decodeInstructions native program = .ok instrs) :
    instrs.length = program.length / 4 := by
  obtain ⟨-, hall⟩ := (decodeInstructions_ok_iff _ _ _).mp haccept
  rw [← hall.length_eq, length_words]

/-- Entry `i` is the decoding of the word at `4 * i`. -/
theorem decodeInstruction_wordAt (haccept : decodeInstructions native program = .ok instrs)
    (i : Nat) (hi : i < instrs.length) (h : 4 * i + 3 < program.length) :
    decodeInstruction {} (wordAt native program (4 * i) h) = .ok instrs[i] := by
  obtain ⟨-, hall⟩ := (decodeInstructions_ok_iff _ _ _).mp haccept
  have hw : i < (words program).length := by
    rw [hall.length_eq]
    exact hi
  exact ((decodeWord_wordAt i hw h).mp (hall.get hw hi)).2

/-- Entry `i` is what the four bytes from `4 * i` decode to as a program of their own. -/
theorem decodeInstructions_slice (haccept : decodeInstructions native program = .ok instrs)
    (i : Nat) (hi : i < instrs.length) :
    decodeInstructions native ((program.drop (4 * i)).take 4) = .ok [instrs[i]] := by
  obtain ⟨hlen, hall⟩ := (decodeInstructions_ok_iff _ _ _).mp haccept
  have hw : i < (words program).length := by
    rw [hall.length_eq]
    exact hi
  have hword := hall.get hw hi
  simp only [List.get_eq_getElem] at hword
  rw [decodeInstructions_ok_iff, words_slice program i hw]
  refine ⟨?_, .cons hword .nil⟩
  have hcount := length_words program
  simp only [List.length_take, List.length_drop]
  omega

/-- Decoding is compositional, accepts word by word, and gives each position the
decoding of its own bytes. -/
theorem decodeInstructions_compositional (native : Endian) :
    (∀ p q : List Byte, p.length % 4 = 0 → ∀ instrs,
      decodeInstructions native (p ++ q) = .ok instrs ↔
        ∃ instrs₁ instrs₂, decodeInstructions native p = .ok instrs₁ ∧
          decodeInstructions native q = .ok instrs₂ ∧ instrs = instrs₁ ++ instrs₂) ∧
    (∀ p : List Byte, (∃ instrs, decodeInstructions native p = .ok instrs) ↔
      p.length % 4 = 0 ∧
        ∀ i, (h : 4 * i + 3 < p.length) → isEncodingCompressed p[4 * i] = false ∧
          ∃ instr, decodeInstruction {} (wordAt native p (4 * i) h) = .ok instr) ∧
    (∀ (p : List Byte) instrs, decodeInstructions native p = .ok instrs →
      instrs.length = p.length / 4 ∧
        ∀ i, (hi : i < instrs.length) → (h : 4 * i + 3 < p.length) →
          decodeInstruction {} (wordAt native p (4 * i) h) = .ok instrs[i]) ∧
    (∀ (p p' : List Byte) instrs instrs', decodeInstructions native p = .ok instrs →
      decodeInstructions native p' = .ok instrs' →
      ∀ i j, (hi : i < instrs.length) → (hj : j < instrs'.length) →
        (p.drop (4 * i)).take 4 = (p'.drop (4 * j)).take 4 → instrs[i] = instrs'[j]) := by
  refine ⟨fun p q hlen instrs => decodeInstructions_append q hlen,
    fun p => decodeInstructions_accepts_iff, fun p instrs haccept =>
      ⟨length_decodeInstructions haccept, decodeInstruction_wordAt haccept⟩, ?_⟩
  intro p p' instrs instrs' haccept haccept' i j hi hj hbytes
  have hslice := decodeInstructions_slice haccept i hi
  have hslice' := decodeInstructions_slice haccept' j hj
  rw [hbytes, hslice'] at hslice
  simpa using hslice.symm

/-- An ADDI and an ECALL, decoded together and apart. -/
theorem decodeInstructions_compositional_pair :
    ∃ instrs₁ instrs₂, decodeInstructions .little (wordBytes 0x00000013#32) = .ok instrs₁ ∧
      decodeInstructions .little (wordBytes 0x00000073#32) = .ok instrs₂ ∧
      ([{ type := .ADDI }, { type := .ECALL }] : List Instruction) = instrs₁ ++ instrs₂ :=
  ((decodeInstructions_compositional .little).1 (wordBytes 0x00000013#32)
    (wordBytes 0x00000073#32) rfl _).mp rfl

end RiscvEmulator.Guarantees
