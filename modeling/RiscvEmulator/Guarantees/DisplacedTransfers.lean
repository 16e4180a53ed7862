import RiscvEmulator.Guarantees.ForwardPrograms

/-!
# The machine that a run does follow

`continue` evaluates the increment expression of the loop, so a transfer lands 4 bytes past
its target. A run is therefore the run of the control-flow machine on the program whose
transfers have offsets larger by 4, state by state and up to the point where both stop: at
the end of the program, or at a type other than LUI, AUIPC, the jumps and the branches. The
one exception is a JALR that links into its own base register.
-/
namespace RiscvEmulator.Guarantees
open Source Source.Emulator Spec Library PartialRun InstructionFormat

/-- The types that transfer control. -/
def transferTypes : List InstructionType := [.JAL, .JALR, .BEQ, .BNE, .BLT, .BGE, .BLTU, .BGEU]

/-- The instruction with its offset, if it has one, larger by 4. -/
def displaced (instr : Instruction) : Instruction :=
  if instr.type ∈ transferTypes then { instr with immediate := instr.immediate + 4 } else instr

/-- JALR reads its base after it has written the link. -/
def LinksIntoBase (instr : Instruction) : Prop :=
  instr.type = .JALR ∧ instr.destinationRegister = instr.sourceRegister1 ∧
    instr.destinationRegister ≠ 0

/-- The displaced offset is the offset and 4, without a change of sign. -/
def OffsetBounded (instr : Instruction) : Prop :=
  instr.type ∈ transferTypes → instr.immediate.toInt + 4 < 2 ^ 31

section Instruction
variable {instr : Instruction} {t : Thread} {hart : Hart}

theorem displaced_type (instr : Instruction) : (displaced instr).type = instr.type := by
  unfold displaced
  split <;> rfl

theorem displaced_of_transfer (h : instr.type ∈ transferTypes) :
    displaced instr = { instr with immediate := instr.immediate + 4 } := if_pos h

theorem displaced_of_other (h : instr.type ∉ transferTypes) : displaced instr = instr := if_neg h

theorem offset_displaced (htype : instr.type ∈ transferTypes) (hbound : OffsetBounded instr) :
    offset (displaced instr) = offset instr + 4 := by
  have hlt := hbound htype
  have hlower := BitVec.le_toInt instr.immediate
  have hfour : (4#32).toInt = 4 ∧ (4#64).toInt = 4 := by decide
  have hsum : (instr.immediate + 4#32).toInt = instr.immediate.toInt + 4 := by
    rw [BitVec.toInt_add, hfour.1]
    apply Int.bmod_eq_of_le <;> norm_num at hlower hlt ⊢ <;> omega
  rw [displaced_of_transfer htype]
  apply BitVec.eq_of_toInt_eq
  show ((instr.immediate + 4#32).signExtend 64).toInt = (offset instr + 4#64).toInt
  rw [offset, BitVec.toInt_add, BitVec.toInt_signExtend_of_le (by decide),
    BitVec.toInt_signExtend_of_le (by decide), hsum, hfour.2]
  symm
  apply Int.bmod_eq_of_le <;> norm_num at hlower hlt ⊢ <;> omega

theorem clearLowest_eq_shifts (address : Register) :
    clearLowest address = (address >>> 1) <<< 1 := by
  apply BitVec.eq_of_getLsbD_eq
  intro i hi
  simp only [clearLowest, BitVec.getLsbD_and, BitVec.getLsbD_not, BitVec.getLsbD_one,
    BitVec.getLsbD_shiftLeft, BitVec.getLsbD_ushiftRight]
  cases i with
  | zero => simp
  | succ i => simp [hi, Nat.add_comm 1 i]

/-- Clearing the lowest bit commutes with a step of 4. -/
theorem clearLowest_add_four (address : Register) :
    clearLowest (address + 4) = clearLowest address + 4 := by
  rw [clearLowest_eq_shifts, clearLowest_eq_shifts]
  apply BitVec.eq_of_toNat_eq
  simp only [BitVec.toNat_add, BitVec.toNat_shiftLeft, BitVec.toNat_ushiftRight,
    Nat.shiftLeft_eq, Nat.shiftRight_eq_div_pow, BitVec.reduceToNat]
  omega

theorem jumpBase_of_not_linksIntoBase (htype : instr.type = .JALR)
    (hlink : ¬LinksIntoBase instr) (t : Thread) :
    jumpBase instr t = read t.registers instr.sourceRegister1 :=
  if_neg fun h => hlink ⟨htype, h.1, h.2⟩

theorem displaced_registers (instr : Instruction) :
    (displaced instr).destinationRegister = instr.destinationRegister ∧
      (displaced instr).sourceRegister1 = instr.sourceRegister1 ∧
      (displaced instr).sourceRegister2 = instr.sourceRegister2 := by
  unfold displaced
  split <;> exact ⟨rfl, rfl, rfl⟩

theorem transferTypes_of_comparison {compare : Register → Register → Bool}
    (h : comparison instr.type = some compare) : instr.type ∈ transferTypes := by
  unfold comparison at h
  split at h
  case h_7 => cases h
  all_goals
    next htype =>
    rw [htype]
    decide

theorem execute_of_comparison {compare : Register → Register → Bool}
    (h : comparison instr.type = some compare) (hart : Hart) :
    hart.execute instr = some
      ⟨if compare (hart.x instr.sourceRegister1) (hart.x instr.sourceRegister2) then
        hart.programCounter + offset instr else hart.programCounter + 4, hart.x⟩ := by
  unfold Hart.execute
  split
  case h_5 =>
    rw [h]
    rfl
  all_goals
    next htype =>
    rw [htype] at h
    cases h

/-- What the loop makes of a branch is what the machine makes of the displaced one. -/
theorem execute_displaced_branch {compare : Register → Register → Bool}
    (hcompare : comparison instr.type = some compare) (hbound : OffsetBounded instr) (t : Thread) :
    (hartOf t).execute (displaced instr) = some ⟨switchTarget instr t + 4, read t.registers⟩ := by
  have htransfer := transferTypes_of_comparison hcompare
  have hdisplaced : comparison (displaced instr).type = some compare := by
    rw [displaced_type]
    exact hcompare
  obtain ⟨-, hrs1, hrs2⟩ := displaced_registers instr
  rw [execute_of_comparison hdisplaced, hrs1, hrs2, offset_displaced htransfer hbound, switchTarget,
    taken_of_comparison hcompare]
  show some (Hart.mk (if compare (read t.registers instr.sourceRegister1)
    (read t.registers instr.sourceRegister2) = true then _ else _) _) = _
  cases compare (read t.registers instr.sourceRegister1)
    (read t.registers instr.sourceRegister2) with
  | true =>
    rw [if_pos rfl, if_pos (.inr rfl), BitVec.add_assoc]
    rfl
  | false =>
    have hne : instr.type ≠ .JAL ∧ instr.type ≠ .JALR := by
      constructor <;>
      · intro htype
        rw [htype] at hcompare
        cases hcompare
    rw [if_neg (by decide), if_neg (by simp [hne.1]), if_neg hne.2]
    rfl

/-- And so of every other instruction. -/
theorem execute_displaced (hbound : OffsetBounded instr) (hlink : ¬LinksIntoBase instr)
    (hmachine : (hartOf t).execute instr = some hart) :
    (hartOf t).execute (displaced instr) = some ⟨switchTarget instr t + 4, hart.x⟩ := by
  obtain ⟨hrd, hrs1, -⟩ := displaced_registers instr
  have hwhole := hmachine
  unfold Hart.execute at hmachine
  split at hmachine
  case h_1 htype | h_2 htype =>
    have hstay : displaced instr = instr := displaced_of_other (by rw [htype]; decide)
    have htarget : switchTarget instr t = t.programCounter := by
      rw [switchTarget, not_taken_of_comparison (by rw [htype]; rfl)]
      simp [htype]
    rw [hstay, hwhole, htarget, ← Option.some.inj hmachine]
    rfl
  case h_3 htype =>
    have htransfer : instr.type ∈ transferTypes := by rw [htype]; decide
    obtain rfl := Option.some.inj hmachine
    rw [switchTarget, if_pos (.inl htype), Hart.execute, displaced_type, htype, hrd]
    dsimp only
    rw [offset_displaced htransfer hbound, ← BitVec.add_assoc]
    rfl
  case h_4 htype =>
    have htransfer : instr.type ∈ transferTypes := by rw [htype]; decide
    obtain rfl := Option.some.inj hmachine
    rw [switchTarget, not_taken_of_comparison (by rw [htype]; rfl), if_neg (by simp [htype]),
      if_pos htype, jumpBase_of_not_linksIntoBase htype hlink, Hart.execute, displaced_type, htype,
      hrd, hrs1]
    dsimp only
    rw [offset_displaced htransfer hbound, ← BitVec.add_assoc, clearLowest_add_four]
    rfl
  case h_5 =>
    obtain ⟨compare, hcompare, rfl⟩ := Option.map_eq_some_iff.mp hmachine
    exact execute_displaced_branch hcompare hbound t

end Instruction

section Run
variable {instructions : List Instruction} {instr : Instruction} {t : Thread}

theorem execute_unsupported (h : instr.type ∉ supportedTypes) (hart : Hart) :
    hart.execute instr = none := by
  unfold Hart.execute
  split
  case h_5 =>
    cases hcompare : comparison instr.type with
    | none => rfl
    | some compare =>
      have htransfer := transferTypes_of_comparison hcompare
      simp only [transferTypes, supportedTypes, List.mem_cons] at htransfer h
      tauto
  all_goals
    next htype =>
    rw [htype] at h
    exact absurd (by decide) h

theorem step_of_fetch {hart : Hart}
    (hfetch : instructions[hart.programCounter.toNat / 4]? = some instr) :
    Hart.step (instructions.map displaced) hart = hart.execute (displaced instr) := by
  unfold Hart.step
  rw [List.getElem?_map, hfetch]
  rfl

/-- One iteration of the loop is one step of the machine on the displaced program, and where
there is no next iteration there is no next step. -/
theorem step_displaced (hbelow : ∀ instr ∈ instructions, OperandsBelow instr)
    (hbound : ∀ instr ∈ instructions, OffsetBounded instr)
    (hlink : ∀ instr ∈ instructions, ¬LinksIntoBase instr) (t : Thread) :
    Hart.step (instructions.map displaced) (hartOf t) =
      (nextTest instructions t).map hartOf := by
  by_cases htest : loopTest instructions t = true
  · obtain ⟨instr, hfetch⟩ := fetch_of_loopTest htest
    have hmem := List.mem_of_getElem? hfetch
    have hplace : instructions[(hartOf t).programCounter.toNat / 4]? = some instr := by
      rw [← hfetch, Thread.getInstructionIndex_toNat]
      rfl
    rw [step_of_fetch hplace, nextTest, if_pos htest]
    cases hiter : iteration instructions t with
    | ok t' =>
      obtain ⟨instr', hfetch', hpc, hart, hmachine, hregisters⟩ := iteration_ok hiter
      obtain rfl := Option.some.inj (hplace.symm.trans hfetch')
      rw [execute_displaced (hbound instr hmem) (hlink instr hmem) hmachine]
      exact congrArg some (Hart.ext hpc.symm hregisters.symm)
    | error e =>
      cases e with
      | undefinedBehaviour => exact absurd hiter (iteration_defined hbelow htest)
      | thrown object =>
        obtain ⟨⟨instr', hfetch', hunsupported⟩, -⟩ := iteration_thrown_iff.mp hiter
        obtain rfl := Option.some.inj (hfetch.symm.trans hfetch')
        rw [execute_unsupported (by rwa [displaced_type])]
        rfl
  · have hpast : instructions.length ≤ (hartOf t).programCounter.toNat / 4 := by
      rw [loopTest, decide_eq_true_eq, Thread.getInstructionIndex_toNat, Nat.not_lt] at htest
      exact htest
    unfold Hart.step
    rw [List.getElem?_eq_none (by rwa [List.length_map]), nextTest, if_neg htest]
    rfl

end Run

section Decoder
variable {w : BitVec 32} {r : Instruction}

theorem transfer_opcode {type : InstructionType} (h : type ∈ transferTypes) :
    (encodingOf type).fixedOpcode = opJal ∨ (encodingOf type).fixedOpcode = opJalr ∨
      (encodingOf type).fixedOpcode = opBranch := by
  simp only [transferTypes, List.mem_cons, List.not_mem_nil, or_false] at h
  rcases h with rfl | rfl | rfl | rfl | rfl | rfl | rfl | rfl <;>
    simp [encodingOf, Encoding.fixedOpcode]

/-- The offsets of a format have far fewer than 31 bits. -/
theorem toInt_signExtend_small {n : Nat} (x : BitVec n) (hn : n ≤ 21) :
    (x.signExtend 32).toInt + 4 < 2 ^ 31 := by
  have hlt := @BitVec.two_mul_toInt_lt n x
  have hpow : (2 : Int) ^ n ≤ 2 ^ 21 := by exact_mod_cast Nat.pow_le_pow_right (by decide) hn
  rw [BitVec.toInt_signExtend_of_le (by omega)]
  norm_num at hpow ⊢
  omega

/-- No transfer the decoder accepts has an offset near the end of the range. -/
theorem decodeInstruction_bounded (h : decodeInstruction {} w = .ok r) : OffsetBounded r := by
  intro htransfer
  have hop := decodeInstruction_opcode h
  rcases transfer_opcode htransfer with hjal | hjalr | hbranch
  · rw [(Dispatched.jal (hop.symm.trans hjal)).eq] at h
    obtain rfl := Except.ok.inj h
    show (getImmediateJ w).toInt + 4 < 2 ^ 31
    rw [getImmediateJ_eq]
    exact toInt_signExtend_small _ (by decide)
  · rw [(Dispatched.jalr (hop.symm.trans hjalr)).eq] at h
    obtain rfl := Except.ok.inj h
    show (getImmediateI w).toInt + 4 < 2 ^ 31
    rw [getImmediateI_eq]
    exact toInt_signExtend_small _ (by decide)
  · rw [(Dispatched.branch (hop.symm.trans hbranch)).eq] at h
    rw [(outcome_decodeBranch _ _).settles h]
    show (getImmediateB w).toInt + 4 < 2 ^ 31
    rw [getImmediateB_eq]
    exact toInt_signExtend_small _ (by decide)

theorem decodeInstructions_bounded {native : Endian} {program : List Byte}
    {instrs : List Instruction} (haccept : decodeInstructions native program = .ok instrs) :
    ∀ instr ∈ instrs, OffsetBounded instr :=
  forall_decoded haccept fun _ _ => decodeInstruction_bounded

end Decoder

/-- A run over a decoded program in which no JALR links into its own base register is, state by
state, the run of the control-flow machine over the program with every transfer offset larger
by 4, and neither goes on where the other has stopped. -/
theorem run_displaced (native : Endian) (program : List Byte) (instrs : List Instruction)
    (haccept : decodeInstructions native program = .ok instrs)
    (hlink : ∀ instr ∈ instrs, ¬LinksIntoBase instr) (t : Thread) (k : Nat) :
    Hart.after (instrs.map displaced) (hartOf t) k =
      (threadAtTest instrs t k).map hartOf := by
  refine runFor_map (fun s => ?_) t k
  refine step_displaced (fun instr hmem => ?_) (decodeInstructions_bounded haccept) hlink s
  exact (decodeInstructions_below haccept instr hmem).toOperandsBelow

/-- A JAL by 4 links into x1 and goes on at 8. -/
theorem run_displaced_jal :
    Hart.after ([{ immediate := 4, destinationRegister := 1, type := .JAL }].map displaced)
        (hartOf {}) 1 =
      (threadAtTest [{ immediate := 4, destinationRegister := 1, type := .JAL }] {} 1).map
        hartOf := by
  refine run_displaced .little (WordBytes.wordBytes 0x004000ef#32) _ rfl ?_ {} 1
  intro instr hmem
  rw [List.mem_singleton.mp hmem]
  rintro ⟨htype, -⟩
  cases htype

end RiscvEmulator.Guarantees
