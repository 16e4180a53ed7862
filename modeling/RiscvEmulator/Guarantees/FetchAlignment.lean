import RiscvEmulator.Guarantees.DecoderPrograms
import RiscvEmulator.Guarantees.ProgramCounter
import RiscvEmulator.Spec.Encoding

/-!
# The instruction a run executes

An accepted program and its instruction vector agree place by place, so an iteration
executes the bytes at the program counter as long as the program counter is a multiple
of 4. `AlignedTransfer` is what a transfer has to meet to keep it so; the loop does not
check it, and from any other target it executes the instruction before.
-/
namespace RiscvEmulator.Guarantees
open Source Source.Emulator Spec Library PartialRun WordBytes

/-- The target of the transfer is a multiple of 4 when the instruction is at one. -/
def AlignedTransfer (instr : Instruction) (t : Thread) : Prop :=
  (instr.type = .JAL ∨ taken instr (read t.registers) = true →
    instr.immediate.toNat % 4 = 0) ∧
  (instr.type = .JALR → (jumpBase instr t + offset instr).getLsbD 1 = false)

section Arithmetic

theorem mod_four_iff (x : BitVec 64) :
    x.toNat % 4 = 0 ↔ x.getLsbD 0 = false ∧ x.getLsbD 1 = false := by
  simp only [BitVec.getLsbD, Nat.testBit_succ, Nat.testBit_zero, decide_eq_false_iff_not]
  omega

theorem clearLowest_mod_four (x : BitVec 64) :
    (clearLowest x).toNat % 4 = 0 ↔ x.getLsbD 1 = false := by
  rw [mod_four_iff]
  unfold clearLowest
  simp

theorem offset_mod_four (instr : Instruction) :
    (offset instr).toNat % 4 = instr.immediate.toNat % 4 := by
  unfold offset
  rw [BitVec.toNat_signExtend]
  have := instr.immediate.isLt
  simp only [BitVec.toNat_setWidth]
  split <;> omega

theorem add_mod_four (x y : BitVec 64) : (x + y).toNat % 4 = (x.toNat + y.toNat) % 4 := by
  rw [BitVec.toNat_add]
  omega

end Arithmetic

/-- From an aligned program counter, the next one is aligned exactly after an aligned
transfer. -/
theorem next_aligned_iff {instr : Instruction} {t t' : Thread}
    (haligned : t.programCounter.toNat % 4 = 0)
    (hpc : t'.programCounter = switchTarget instr t + 4) :
    t'.programCounter.toNat % 4 = 0 ↔ AlignedTransfer instr t := by
  have hnext : t'.programCounter.toNat % 4 = (switchTarget instr t).toNat % 4 := by
    rw [hpc, add_mod_four]
    simp only [BitVec.reduceToNat]
    omega
  rw [hnext]
  unfold switchTarget AlignedTransfer
  split
  · next htransfer =>
    have hjump : (t.programCounter + offset instr).toNat % 4 = instr.immediate.toNat % 4 := by
      rw [add_mod_four, ← offset_mod_four]
      omega
    rw [hjump]
    constructor
    · intro h
      refine ⟨fun _ => h, fun hjalr => ?_⟩
      rcases htransfer with hjal | htaken
      · exact absurd (hjal.symm.trans hjalr) (by decide)
      · rw [not_taken_of_comparison (by rw [hjalr]; rfl)] at htaken
        cases htaken
    · exact fun h => h.1 htransfer
  · next hno =>
    split
    · next hjalr =>
      rw [clearLowest_mod_four]
      exact ⟨fun h => ⟨fun htransfer => absurd htransfer hno, fun _ => h⟩, fun h => h.2 hjalr⟩
    · next hjalr =>
      exact ⟨fun _ => ⟨fun htransfer => absurd htransfer hno, fun h => absurd h hjalr⟩,
        fun _ => haligned⟩

/-- Every iteration of the run executes the decoding of the four program bytes at its
program counter, and the instruction starts there. -/
def ExecutesProgram (native : Endian) (program : List Byte) (instructions : List Instruction)
    (t : Thread) : Prop :=
  ∀ k t' instr, threadAtTest instructions t k = some t' →
    instructions[t'.getInstructionIndex.toNat]? = some instr →
    4 * t'.getInstructionIndex.toNat = t'.programCounter.toNat ∧
      ∃ w, loadU32 native (program.drop t'.programCounter.toNat) = .ok w ∧
        decodeInstruction {} w = .ok instr

/-- Every iteration of the run that is followed by another one makes an aligned transfer. -/
def TransfersAligned (instructions : List Instruction) (t : Thread) : Prop :=
  ∀ k t' t'' instr, threadAtTest instructions t k = some t' →
    nextTest instructions t' = some t'' → loopTest instructions t'' = true →
    instructions[t'.getInstructionIndex.toNat]? = some instr → AlignedTransfer instr t'

theorem loadU32_of_take {ptr : List Byte} {w : BitVec 32} (native : Endian)
    (h : ptr.take 4 = wordBytes w) : loadU32 native ptr = .ok w := by
  rcases ptr with _ | ⟨b0, _ | ⟨b1, _ | ⟨b2, _ | ⟨b3, rest⟩⟩⟩⟩
  · cases h
  · cases h
  · cases h
  · cases h
  · have hword : wordOf b0 b1 b2 b3 = w := by
      apply wordBytes_injective
      rw [wordBytes_wordOf]
      exact h
    rw [loadU32, valueU32_native, ← hword]
    rfl

/-- Instruction `i` of an accepted program is the decoding of the bytes from `4 * i`. -/
theorem decoded_at {native : Endian} {program : List Byte} {instructions : List Instruction}
    (haccept : decodeInstructions native program = .ok instructions) {i : Nat}
    {instr : Instruction} (hfetch : instructions[i]? = some instr) :
    ∃ w, loadU32 native (program.drop (4 * i)) = .ok w ∧ decodeInstruction {} w = .ok instr := by
  obtain ⟨-, hall⟩ := (decodeInstructions_ok_iff native program instructions).mp haccept
  obtain ⟨hi, rfl⟩ := List.getElem?_eq_some_iff.mp hfetch
  have hw : i < (words program).length := by
    rw [hall.length_eq]
    exact hi
  exact ⟨(words program)[i], loadU32_of_take native (wordBytes_getElem program i hw).symm,
    (decodeWord_ok_low_bits (hall.get hw hi)).2⟩

theorem fetch_of_loopTest {instructions : List Instruction} {t : Thread}
    (htest : loopTest instructions t = true) :
    ∃ instr, instructions[t.getInstructionIndex.toNat]? = some instr :=
  ⟨_, List.getElem?_eq_getElem (of_decide_eq_true htest)⟩

theorem loopTest_of_fetch {instructions : List Instruction} {t : Thread} {instr : Instruction}
    (hfetch : instructions[t.getInstructionIndex.toNat]? = some instr) :
    loopTest instructions t = true :=
  decide_eq_true (List.getElem?_eq_some_iff.mp hfetch).1

section Run
variable {instructions : List Instruction} {t : Thread}

/-- Aligned transfers keep the program counter of every executed iteration aligned. -/
theorem aligned_of_transfersAligned (haligned : t.programCounter.toNat % 4 = 0)
    (htransfers : TransfersAligned instructions t) :
    ∀ k t', threadAtTest instructions t k = some t' → loopTest instructions t' = true →
      t'.programCounter.toNat % 4 = 0 := by
  refine runFor_invariant
    (P := fun t' => loopTest instructions t' = true → t'.programCounter.toNat % 4 = 0)
    (fun _ => haligned) ?_
  intro k t' t'' hprev hkept hnext htest
  obtain ⟨hprevtest, hiter⟩ := nextTest_eq_some.mp hnext
  obtain ⟨instr, hfetch, hpc, -⟩ := iteration_ok hiter
  rw [← Thread.getInstructionIndex_toNat] at hfetch
  exact (next_aligned_iff (hkept hprevtest) hpc).mpr
    (htransfers k t' t'' instr hprev hnext htest hfetch)

end Run

/-- A run over an accepted program from an aligned program counter executes the bytes at
its program counter exactly when its transfers are aligned. -/
theorem executesProgram_iff (native : Endian) (program : List Byte)
    (instructions : List Instruction) (t : Thread)
    (haccept : decodeInstructions native program = .ok instructions)
    (haligned : t.programCounter.toNat % 4 = 0) :
    ExecutesProgram native program instructions t ↔ TransfersAligned instructions t := by
  have hindex (t' : Thread) : 4 * t'.getInstructionIndex.toNat = t'.programCounter.toNat ↔
      t'.programCounter.toNat % 4 = 0 := by
    rw [Thread.getInstructionIndex_toNat]
    omega
  constructor
  · intro hexecutes k t' t'' instr hreach hnext htest hfetch
    obtain ⟨-, hiter⟩ := nextTest_eq_some.mp hnext
    obtain ⟨instr', hfetch', hpc, -⟩ := iteration_ok hiter
    rw [← Thread.getInstructionIndex_toNat] at hfetch'
    obtain rfl := Option.some.inj (hfetch.symm.trans hfetch')
    obtain ⟨next, hfetchNext⟩ := fetch_of_loopTest htest
    have hnow := (hindex t').mp (hexecutes k t' instr hreach hfetch).1
    have hthen := (hindex t'').mp
      (hexecutes (k + 1) t'' next (runFor_succ_of hreach hnext) hfetchNext).1
    exact (next_aligned_iff hnow hpc).mp hthen
  · intro htransfers k t' instr hreach hfetch
    have hpc := aligned_of_transfersAligned haligned htransfers k t' hreach
      (loopTest_of_fetch hfetch)
    have hwhere := (hindex t').mpr hpc
    refine ⟨hwhere, ?_⟩
    rw [← hwhere]
    exact decoded_at haccept hfetch

/-- LUI and AUIPC from 0. -/
theorem executesProgram_iff_straight :
    ExecutesProgram .little (encodeProgram
        [{ immediate := 0x1000, destinationRegister := 1, type := .LUI },
         { immediate := 0x1000, destinationRegister := 2, type := .AUIPC }])
      [{ immediate := 0x1000, destinationRegister := 1, type := .LUI },
       { immediate := 0x1000, destinationRegister := 2, type := .AUIPC }] {} ↔
    TransfersAligned
      [{ immediate := 0x1000, destinationRegister := 1, type := .LUI },
       { immediate := 0x1000, destinationRegister := 2, type := .AUIPC }] {} :=
  executesProgram_iff .little _ _ {} rfl rfl

/-- After a JAL by 2 the program counter is 6 and the instruction at 4 is executed. -/
theorem not_executesProgram_jal :
    ¬∀ (native : Endian) (program : List Byte) (instructions : List Instruction) (t : Thread),
      decodeInstructions native program = .ok instructions →
      t.programCounter.toNat % 4 = 0 → ExecutesProgram native program instructions t := by
  intro h
  have hexecutes := h .little
    (encodeProgram [{ immediate := 2, type := .JAL }, { immediate := 0x1000, type := .LUI }])
    [{ immediate := 2, type := .JAL }, { immediate := 0x1000, type := .LUI }] {} rfl rfl
  obtain ⟨hindex, -⟩ := hexecutes 1 _ _ rfl rfl
  exact absurd hindex (by decide)

end RiscvEmulator.Guarantees
