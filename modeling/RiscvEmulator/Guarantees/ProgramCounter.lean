import RiscvEmulator.Source.Emulator
import RiscvEmulator.Spec.Hart

/-!
# The program counter of a run

What one iteration of `Emulator::run` does to the registers and to the program counter.
The registers are those of the RV64I control-flow machine; the program counter is the
target the `switch` leaves plus 4, also after a transfer, since `continue` still evaluates
the increment expression. A run follows the machine exactly when no iteration makes such a
transfer.
-/
namespace RiscvEmulator.Guarantees
open Source Source.Emulator Spec Library PartialRun ExceptList

/-- The base JALR adds its offset to: rs1 is read after the link was written. -/
def jumpBase (instr : Instruction) (t : Thread) : Register :=
  if instr.destinationRegister = instr.sourceRegister1 ∧ instr.destinationRegister ≠ 0 then
    t.programCounter + 4
  else read t.registers instr.sourceRegister1

/-- Where the `switch` leaves the program counter. -/
def switchTarget (instr : Instruction) (t : Thread) : Register :=
  if instr.type = .JAL ∨ taken instr (read t.registers) then t.programCounter + offset instr
  else if instr.type = .JALR then clearLowest (jumpBase instr t + offset instr)
  else t.programCounter

/-- The registers are the ones the specification has after the instruction. -/
def Follows (instr : Instruction) (t t' : Thread) : Prop :=
  ∃ hart, (hartOf t).execute instr = some hart ∧ read t'.registers = hart.x

section Execute
variable {instr : Instruction} {t t' : Thread}

theorem taken_of_comparison {compare : Register → Register → Bool}
    (h : comparison instr.type = some compare) (x : RegisterIndex → Register) :
    taken instr x = compare (x instr.sourceRegister1) (x instr.sourceRegister2) := by
  rw [taken, h]
  rfl

theorem not_taken_of_comparison (h : comparison instr.type = none)
    (x : RegisterIndex → Register) : taken instr x = false := by
  rw [taken, h]
  rfl

/-- The six branch cases: the source's comparison is the one of the specification. -/
theorem branch_ok {sourceTaken compare : Register → Register → Bool}
    (hcompare : comparison instr.type = some compare) (hsame : ∀ a b, sourceTaken a b = compare a b)
    (hne : instr.type ≠ .JAL ∧ instr.type ≠ .JALR)
    (hmachine : (hartOf t).execute instr = some
      ⟨if compare (read t.registers instr.sourceRegister1) (read t.registers instr.sourceRegister2)
        then t.programCounter + offset instr else t.programCounter + 4, read t.registers⟩)
    (h : branch sourceTaken instr t = .ok t') :
    t'.programCounter = switchTarget instr t ∧ Follows instr t t' := by
  unfold branch at h
  obtain ⟨value1, hget1, h⟩ := bind_ok h
  obtain ⟨value2, hget2, h⟩ := bind_ok h
  have htaken := taken_of_comparison hcompare (read t.registers)
  rw [read_of_get hget1, read_of_get hget2, ← hsame] at htaken
  obtain rfl := Except.ok.inj h
  refine ⟨?_, _, hmachine, ?_⟩
  · unfold switchTarget
    rw [htaken]
    by_cases hcond : sourceTaken value1 value2 = true
    · rw [if_pos hcond, if_pos (.inr hcond)]
      rfl
    · rw [if_neg hcond, if_neg (not_or.mpr ⟨hne.1, hcond⟩), if_neg hne.2]
  · split <;> rfl

/-- Reading rs1 after the link was written. -/
theorem jumpBase_of_write {file : RegisterFile}
    (hfile : read file =
      write (read t.registers) instr.destinationRegister (t.programCounter + 4)) :
    read file instr.sourceRegister1 = jumpBase instr t := by
  unfold jumpBase
  rw [hfile]
  unfold write
  by_cases hzero : instr.destinationRegister = 0
  · rw [if_pos hzero, if_neg (fun h => h.2 hzero)]
  · rw [if_neg hzero]
    by_cases heq : instr.destinationRegister = instr.sourceRegister1
    · rw [if_pos ⟨heq, hzero⟩, heq, Function.update_self]
    · rw [if_neg (fun h => heq h.1), Function.update_of_ne (Ne.symm heq)]

/-- What the `switch` does when it does not throw. -/
theorem execute_ok (h : execute instr t = .ok t') :
    t'.programCounter = switchTarget instr t ∧ Follows instr t t' := by
  unfold execute at h
  split at h
  next htype =>
    obtain ⟨registers, hset, h⟩ := bind_ok h
    obtain rfl := Except.ok.inj h
    refine ⟨?_, _, by rw [Hart.execute, htype], read_of_set hset⟩
    rw [switchTarget, not_taken_of_comparison (by rw [htype]; rfl), htype]
    rfl
  next htype =>
    obtain ⟨registers, hset, h⟩ := bind_ok h
    obtain rfl := Except.ok.inj h
    refine ⟨?_, _, by rw [Hart.execute, htype], read_of_set hset⟩
    rw [switchTarget, not_taken_of_comparison (by rw [htype]; rfl), htype]
    rfl
  next htype =>
    obtain ⟨registers, hset, h⟩ := bind_ok h
    obtain rfl := Except.ok.inj h
    have hmachine : (hartOf t).execute instr = some ⟨t.programCounter + offset instr,
        write (read t.registers) instr.destinationRegister (t.programCounter + 4)⟩ := by
      rw [Hart.execute, htype]
      rfl
    refine ⟨?_, _, hmachine, read_of_set hset⟩
    rw [switchTarget, if_pos (.inl htype)]
    rfl
  next htype =>
    obtain ⟨registers, hset, h⟩ := bind_ok h
    obtain ⟨base, hget, h⟩ := bind_ok h
    obtain rfl := Except.ok.inj h
    have hread := read_of_set hset
    refine ⟨?_, _, by rw [Hart.execute, htype], hread⟩
    rw [switchTarget, not_taken_of_comparison (by rw [htype]; rfl), if_neg (by rw [htype]; decide),
      if_pos htype, ← jumpBase_of_write hread, read_of_get hget]
    rfl
  next htype =>
    exact branch_ok (by rw [htype]; rfl) (fun a b => rfl) (by rw [htype]; decide)
      (by rw [Hart.execute, htype]; rfl) h
  next htype =>
    exact branch_ok (by rw [htype]; rfl) (fun a b => (decide_not (p := a = b)).symm)
      (by rw [htype]; decide)
      (by rw [Hart.execute, htype]; rfl) h
  next htype =>
    exact branch_ok (by rw [htype]; rfl) (fun a b => rfl) (by rw [htype]; decide)
      (by rw [Hart.execute, htype]; rfl) h
  next htype =>
    exact branch_ok (by rw [htype]; rfl) (fun a b => rfl) (by rw [htype]; decide)
      (by rw [Hart.execute, htype]; rfl) h
  next htype =>
    exact branch_ok (by rw [htype]; rfl) (fun a b => rfl) (by rw [htype]; decide)
      (by rw [Hart.execute, htype]; rfl) h
  next htype =>
    exact branch_ok (by rw [htype]; rfl) (fun a b => rfl) (by rw [htype]; decide)
      (by rw [Hart.execute, htype]; rfl) h
  next => cases h

/-- One completed iteration: `continue` and `break` both add 4 to what the `switch` leaves. -/
theorem iteration_ok {instructions : List Instruction} (h : iteration instructions t = .ok t') :
    ∃ instr, instructions[t.programCounter.toNat / 4]? = some instr ∧
      t'.programCounter = switchTarget instr t + 4 ∧ Follows instr t t' := by
  unfold iteration at h
  simp only [Thread.getInstructionIndex_toNat] at h
  split at h
  next instr hfetch =>
    obtain ⟨s, hexecute, h⟩ := bind_ok h
    obtain ⟨htarget, hfollows⟩ := execute_ok hexecute
    obtain rfl := Except.ok.inj h
    refine ⟨instr, hfetch, ?_, hfollows⟩
    rw [Thread.getNextProgramCounter, htarget]
    rfl
  next => cases h

end Execute

/-- The transfers the increment expression spoils: every JAL, every taken branch, and
every JALR but one that links into its own base register and where the wrong base makes
up for the increment. -/
def Misdirected (instr : Instruction) (t : Thread) : Prop :=
  instr.type = .JAL ∨ taken instr (read t.registers) = true ∨
    (instr.type = .JALR ∧ ¬(instr.destinationRegister = instr.sourceRegister1 ∧
      instr.destinationRegister ≠ 0 ∧
      clearLowest (read t.registers instr.sourceRegister1 + offset instr) =
        clearLowest (t.programCounter + 4 + offset instr) + 4))

theorem add_four_ne (address : Register) : address + 4 ≠ address := by
  intro h
  have hnat := congrArg BitVec.toNat h
  rw [BitVec.toNat_add] at hnat
  have := address.isLt
  simp only [BitVec.reduceToNat] at hnat
  omega

section Misdirected
variable {instr : Instruction} {t t' : Thread} {hart : Hart}

theorem jalr_programCounter (htype : instr.type = .JALR)
    (hmachine : (hartOf t).execute instr = some hart) :
    switchTarget instr t + 4 = hart.programCounter ↔ ¬Misdirected instr t := by
  have hnottaken : taken instr (read t.registers) = false :=
    not_taken_of_comparison (by rw [htype]; rfl) _
  have hspec : hart.programCounter =
      clearLowest (read t.registers instr.sourceRegister1 + offset instr) := by
    rw [Hart.execute, htype] at hmachine
    rw [← Option.some.inj hmachine]
    rfl
  have hcode : switchTarget instr t = clearLowest (jumpBase instr t + offset instr) := by
    rw [switchTarget, hnottaken, htype]
    rfl
  unfold Misdirected
  rw [hspec, hcode, hnottaken, htype, jumpBase]
  split
  · next hlink =>
    constructor
    · rintro heq (hjal | htaken | ⟨-, hne⟩)
      · cases hjal
      · cases htaken
      · exact hne ⟨hlink.1, hlink.2, heq.symm⟩
    · intro hok
      by_contra hne
      exact hok (.inr (.inr ⟨rfl, fun h => hne h.2.2.symm⟩))
  · next hlink =>
    constructor
    · intro heq
      exact absurd heq (add_four_ne _)
    · intro hok
      exact absurd (.inr (.inr ⟨rfl, fun h => hlink ⟨h.1, h.2.1⟩⟩)) hok

theorem next_programCounter (hnottaken : taken instr (read t.registers) = false)
    (hne : instr.type ≠ .JAL ∧ instr.type ≠ .JALR)
    (hspec : hart.programCounter = t.programCounter + 4) :
    switchTarget instr t + 4 = hart.programCounter ↔ ¬Misdirected instr t := by
  unfold Misdirected switchTarget
  rw [hspec, hnottaken, if_neg (not_or.mpr ⟨hne.1, Bool.false_ne_true⟩), if_neg hne.2]
  constructor
  · rintro - (hjal | htaken | ⟨hjalr, -⟩)
    · exact hne.1 hjal
    · cases htaken
    · exact hne.2 hjalr
  · exact fun _ => rfl

theorem branch_programCounter {compare : Register → Register → Bool}
    (hcompare : comparison instr.type = some compare) (hne : instr.type ≠ .JAL ∧ instr.type ≠ .JALR)
    (hspec : hart.programCounter =
      if compare (read t.registers instr.sourceRegister1) (read t.registers instr.sourceRegister2)
      then t.programCounter + offset instr else t.programCounter + 4) :
    switchTarget instr t + 4 = hart.programCounter ↔ ¬Misdirected instr t := by
  have htaken := taken_of_comparison hcompare (read t.registers)
  cases hcond : taken instr (read t.registers) with
  | true =>
    rw [← htaken, hcond, if_pos rfl] at hspec
    rw [switchTarget, hspec, if_pos (.inr hcond)]
    exact ⟨fun heq => absurd heq (add_four_ne _), fun hok => absurd (.inr (.inl hcond)) hok⟩
  | false =>
    rw [← htaken, hcond, if_neg Bool.false_ne_true] at hspec
    exact next_programCounter hcond hne hspec

/-- The loop goes where the specification goes exactly when the transfer is not spoiled. -/
theorem programCounter_iff (hmachine : (hartOf t).execute instr = some hart) :
    switchTarget instr t + 4 = hart.programCounter ↔ ¬Misdirected instr t := by
  have hwhole := hmachine
  unfold Hart.execute at hmachine
  split at hmachine
  next htype =>
    obtain rfl := Option.some.inj hmachine
    exact next_programCounter (not_taken_of_comparison (by rw [htype]; rfl) _)
      (by rw [htype]; decide) rfl
  next htype =>
    obtain rfl := Option.some.inj hmachine
    exact next_programCounter (not_taken_of_comparison (by rw [htype]; rfl) _)
      (by rw [htype]; decide) rfl
  next htype =>
    obtain rfl := Option.some.inj hmachine
    unfold switchTarget
    rw [if_pos (.inl htype)]
    exact ⟨fun heq => absurd heq (add_four_ne _), fun hok => absurd (.inl htype) hok⟩
  next htype => exact jalr_programCounter htype hwhole
  next hjal hjalr =>
    obtain ⟨compare, hcompare, hhart⟩ := Option.map_eq_some_iff.mp hmachine
    refine branch_programCounter hcompare ⟨hjal, hjalr⟩ ?_
    rw [← hhart]
    rfl

end Misdirected

/-- `instr` is executed at `t'` by an iteration of the run from `t` that completes. -/
def Executes (instructions : List Instruction) (t t' : Thread) (instr : Instruction) : Prop :=
  ∃ k t'', threadAtTest instructions t k = some t' ∧ nextTest instructions t' = some t'' ∧
    instructions[t'.programCounter.toNat / 4]? = some instr

/-- At every test of the loop condition the program counter is the one of the control-flow
machine after as many instructions. -/
def FollowsMachine (instructions : List Instruction) (t : Thread) : Prop :=
  ∀ k t', threadAtTest instructions t k = some t' →
    ∃ hart, Hart.after instructions (hartOf t) k = some hart ∧
      t'.programCounter = hart.programCounter

section Run
variable {instructions : List Instruction} {t : Thread}

/-- One step of the machine, from where the loop stands. -/
theorem step_of_follows {t' : Thread} {instr : Instruction} {hart : Hart}
    (hfetch : instructions[t'.programCounter.toNat / 4]? = some instr)
    (hmachine : (hartOf t').execute instr = some hart) :
    Hart.step instructions (hartOf t') = some hart := by
  unfold Hart.step
  rw [show (hartOf t').programCounter = t'.programCounter from rfl, hfetch]
  exact hmachine

theorem followsMachine_of_not_misdirected
    (hok : ∀ t' instr, Executes instructions t t' instr → ¬Misdirected instr t') :
    FollowsMachine instructions t := by
  intro k t' hreach
  have hsimulates : ∃ hart, runFor (Hart.step instructions) (hartOf t) k = some hart ∧
      hart = hartOf t' := by
    refine runFor_simulation (fun t' hart => hart = hartOf t') rfl ?_ k t' hreach
    rintro k s s' hart hreach rfl hnext
    obtain ⟨-, hiter⟩ := nextTest_eq_some.mp hnext
    obtain ⟨instr, hfetch, hpc, hart', hmachine, hregisters⟩ := iteration_ok hiter
    refine ⟨hart', step_of_follows hfetch hmachine, ?_⟩
    have hstay := hok s instr ⟨k, s', hreach, hnext, hfetch⟩
    have hsame := hpc.trans ((programCounter_iff hmachine).mpr hstay)
    exact Hart.ext hsame.symm hregisters.symm
  obtain ⟨hart, hafter, rfl⟩ := hsimulates
  exact ⟨hartOf t', hafter, rfl⟩

/-- While the program counters agree, the whole states do. -/
theorem hart_of_followsMachine (hfollows : FollowsMachine instructions t) :
    ∀ k t', threadAtTest instructions t k = some t' →
      Hart.after instructions (hartOf t) k = some (hartOf t') := by
  intro k
  induction k with
  | zero =>
    intro t' hreach
    obtain rfl := Option.some.inj hreach
    rfl
  | succ k ih =>
    intro t'' hreach
    obtain ⟨t', hprev, hnext⟩ := runFor_succ_iff.mp hreach
    obtain ⟨-, hiter⟩ := nextTest_eq_some.mp hnext
    obtain ⟨instr, hfetch, -, hart', hmachine, hregisters⟩ := iteration_ok hiter
    have hafter : Hart.after instructions (hartOf t) (k + 1) = some hart' :=
      runFor_succ_of (ih t' hprev) (step_of_follows hfetch hmachine)
    obtain ⟨hart, hafter', hpc⟩ := hfollows (k + 1) t'' hreach
    obtain rfl := Option.some.inj (hafter.symm.trans hafter')
    rw [hafter]
    exact congrArg some (Hart.ext hpc.symm hregisters.symm)

/-- The loop follows the control-flow machine exactly when none of its completed iterations
makes a transfer that the increment expression spoils. -/
theorem followsMachine_iff (instructions : List Instruction) (t : Thread) :
    FollowsMachine instructions t ↔
      ∀ t' instr, Executes instructions t t' instr → ¬Misdirected instr t' := by
  constructor
  · rintro hfollows t' instr ⟨k, t'', hreach, hnext, hfetch⟩
    obtain ⟨-, hiter⟩ := nextTest_eq_some.mp hnext
    obtain ⟨instr', hfetch', hpc, hart', hmachine, -⟩ := iteration_ok hiter
    obtain rfl := Option.some.inj (hfetch.symm.trans hfetch')
    have hafter : Hart.after instructions (hartOf t) (k + 1) = some hart' :=
      runFor_succ_of (hart_of_followsMachine hfollows k t' hreach)
        (step_of_follows hfetch hmachine)
    obtain ⟨hart, hafter', hsame⟩ := hfollows (k + 1) t'' (runFor_succ_of hreach hnext)
    obtain rfl := Option.some.inj (hafter.symm.trans hafter')
    exact (programCounter_iff hmachine).mp (hpc.symm.trans hsame)
  · exact followsMachine_of_not_misdirected

/-- The types `run` executes. -/
def Executable (type : InstructionType) : Prop :=
  type = .LUI ∨ type = .AUIPC ∨ type = .JAL ∨ type = .JALR ∨ (comparison type).isSome = true

/-- After a JAL by 4 the loop tests its condition at 8. -/
theorem not_followsMachine_jal :
    ¬∀ instructions : List Instruction, (∀ instr ∈ instructions, Executable instr.type) →
      ∀ t : Thread, FollowsMachine instructions t := by
  intro h
  have hjal : ∀ instr ∈ [({ immediate := 4, type := .JAL } : Instruction)],
      Executable instr.type := by
    intro instr hmem
    rw [List.mem_singleton.mp hmem]
    exact .inr (.inr (.inl rfl))
  obtain ⟨hart, hafter, hpc⟩ := h _ hjal {} 1 _ rfl
  cases hafter
  exact absurd hpc (by decide)

end Run
end RiscvEmulator.Guarantees
