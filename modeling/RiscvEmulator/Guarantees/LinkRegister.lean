import RiscvEmulator.Guarantees.ProgramCounter

/-!
# The link register of a JALR

`run` writes the link before it reads the base, so a JALR whose destination is its own
base register jumps from the link instead. Two JALRs that differ in their destination
alone go to one place, the one the old base gives, exactly when neither does that or the
link happens to lead there too.
-/
namespace RiscvEmulator.Guarantees
open Source Source.Emulator Spec Library ExceptList

/-- The instruction vector with the instruction the thread is about to execute replaced. -/
def replaceCurrent (instructions : List Instruction) (t : Thread) (instr : Instruction) :
    List Instruction := instructions.set (t.programCounter.toNat / 4) instr

/-- `instr` with another link register. -/
def linking (instr : Instruction) (rd : RegisterIndex) : Instruction :=
  { instr with destinationRegister := rd }

/-- Where the loop stands after a JALR that jumps from the value the base register has
before the link is written. -/
def targetFromBase (instr : Instruction) (t : Thread) : Register :=
  clearLowest (read t.registers instr.sourceRegister1 + offset instr) + 4

/-- One iteration on each of two JALRs that differ in the link register. -/
structure LinkIndependent (instructions : List Instruction) (t : Thread) (instr : Instruction)
    (rd₁ rd₂ : RegisterIndex) : Prop where
  completes : instr.sourceRegister1.toNat < registerCount → ∀ rd ∈ [rd₁, rd₂],
    rd.toNat < registerCount →
      ∃ t', iteration (replaceCurrent instructions t (linking instr rd)) t = .ok t'
  sameTarget : ∀ t₁ t₂,
    iteration (replaceCurrent instructions t (linking instr rd₁)) t = .ok t₁ →
    iteration (replaceCurrent instructions t (linking instr rd₂)) t = .ok t₂ →
      t₁.programCounter = t₂.programCounter
  fromBase : ∀ rd ∈ [rd₁, rd₂], ∀ t',
    iteration (replaceCurrent instructions t (linking instr rd)) t = .ok t' →
      t'.programCounter = targetFromBase instr t

/-- A JALR that links into its own base register and is led elsewhere by the link. -/
def Diverted (instr : Instruction) (t : Thread) (rd : RegisterIndex) : Prop :=
  rd = instr.sourceRegister1 ∧ rd ≠ 0 ∧ rd.toNat < registerCount ∧
    clearLowest (t.programCounter + 4 + offset instr) ≠
      clearLowest (read t.registers instr.sourceRegister1 + offset instr)

section Iteration
variable {instructions : List Instruction} {t t' : Thread} {instr : Instruction}
  {rd : RegisterIndex}

theorem replaceCurrent_fetch (instr : Instruction) (htest : loopTest instructions t = true) :
    (replaceCurrent instructions t instr)[t.programCounter.toNat / 4]? = some instr := by
  have hindex : t.getInstructionIndex.toNat < instructions.length := of_decide_eq_true htest
  rw [Thread.getInstructionIndex_toNat] at hindex
  exact List.getElem?_set_self hindex

theorem execute_jalr {file : RegisterFile} {base : Register} (htype : instr.type = .JALR)
    (hset : t.registers.set instr.destinationRegister t.getNextProgramCounter = .ok file)
    (hget : file.get instr.sourceRegister1 = .ok base) :
    execute instr t = .ok { t with
      registers := file
      programCounter := (base + instr.immediate.signExtend 64) &&& ~~~1#64 } := by
  unfold execute
  rw [htype]
  dsimp only
  rw [hset]
  change (file.get instr.sourceRegister1 >>= _) = _
  rw [hget]
  rfl

theorem iteration_jalr_completes (htest : loopTest instructions t = true)
    (htype : instr.type = .JALR) (hrd : instr.destinationRegister.toNat < registerCount)
    (hrs1 : instr.sourceRegister1.toNat < registerCount) :
    ∃ t', iteration (replaceCurrent instructions t instr) t = .ok t' := by
  have hfetch := replaceCurrent_fetch instr htest
  obtain ⟨file, hset⟩ := t.registers.set_ok hrd t.getNextProgramCounter
  obtain ⟨base, hget⟩ := file.get_ok hrs1
  have hexecute : execute instr { t with cycleCounter := t.cycleCounter + 1 } = _ :=
    execute_jalr htype hset hget
  unfold iteration
  simp only [Thread.getInstructionIndex_toNat, hfetch, hexecute]
  exact ⟨_, rfl⟩

/-- What completes has read a base register that exists. -/
theorem jalr_base_lt (htype : instr.type = .JALR) {t t' : Thread}
    (h : execute instr t = .ok t') : instr.sourceRegister1.toNat < registerCount := by
  unfold execute at h
  rw [htype] at h
  obtain ⟨file, -, h⟩ := bind_ok h
  obtain ⟨base, hget, -⟩ := bind_ok h
  exact RegisterFile.lt_of_get hget

theorem iteration_jalr (htest : loopTest instructions t = true) (htype : instr.type = .JALR)
    (h : iteration (replaceCurrent instructions t instr) t = .ok t') :
    instr.sourceRegister1.toNat < registerCount ∧
      t'.programCounter = clearLowest (jumpBase instr t + offset instr) + 4 := by
  have hcurrent := replaceCurrent_fetch instr htest
  obtain ⟨fetched, hfetch, hpc, -⟩ := iteration_ok h
  obtain rfl := Option.some.inj (hfetch.symm.trans hcurrent)
  constructor
  · unfold iteration at h
    simp only [Thread.getInstructionIndex_toNat, hcurrent] at h
    obtain ⟨s, hexecute, -⟩ := bind_ok h
    exact jalr_base_lt htype hexecute
  · rw [hpc, switchTarget, not_taken_of_comparison (by rw [htype]; rfl), htype]
    rfl

/-- The base the loop reads serves as well as the old one unless the link diverts it. -/
theorem targetFromBase_iff (instr : Instruction)
    (hrs1 : instr.sourceRegister1.toNat < registerCount) :
    clearLowest (jumpBase instr t + offset instr) + 4 = targetFromBase instr t ↔
      ¬Diverted instr t instr.destinationRegister := by
  unfold jumpBase targetFromBase Diverted
  split
  · next hlink =>
    constructor
    · rintro heq ⟨-, -, -, hne⟩
      exact hne (add_right_cancel heq)
    · intro hok
      by_contra hne
      exact hok ⟨hlink.1, hlink.2, hlink.1 ▸ hrs1, fun heq => hne (congrArg (· + 4) heq)⟩
  · next hlink =>
    exact ⟨fun _ hdiverted => hlink ⟨hdiverted.1, hdiverted.2.1⟩, fun _ => rfl⟩

end Iteration

/-- Two JALRs that differ in the link register alone go to the one place the old base
gives exactly when neither is diverted by its link. -/
theorem linkIndependent_iff (instructions : List Instruction) (t : Thread) (instr : Instruction)
    (rd₁ rd₂ : RegisterIndex) (htest : loopTest instructions t = true)
    (htype : instr.type = .JALR) :
    LinkIndependent instructions t instr rd₁ rd₂ ↔
      ¬Diverted instr t rd₁ ∧ ¬Diverted instr t rd₂ := by
  have htype' (rd : RegisterIndex) : (linking instr rd).type = .JALR := htype
  have completes (rd : RegisterIndex) (hrs1 : instr.sourceRegister1.toNat < registerCount)
      (hrd : rd.toNat < registerCount) :
      ∃ t', iteration (replaceCurrent instructions t (linking instr rd)) t = .ok t' :=
    iteration_jalr_completes htest (htype' rd) hrd hrs1
  have fromBase_of (rd : RegisterIndex) (hok : ¬Diverted instr t rd) (t' : Thread)
      (h : iteration (replaceCurrent instructions t (linking instr rd)) t = .ok t') :
      t'.programCounter = targetFromBase instr t := by
    obtain ⟨hrs1, hpc⟩ := iteration_jalr htest (htype' rd) h
    exact hpc.trans ((targetFromBase_iff (linking instr rd) hrs1).mpr hok)
  have notDiverted_of (rd : RegisterIndex)
      (h : ∀ t', iteration (replaceCurrent instructions t (linking instr rd)) t = .ok t' →
        t'.programCounter = targetFromBase instr t) : ¬Diverted instr t rd := by
    intro hdiverted
    have hrs1 : instr.sourceRegister1.toNat < registerCount :=
      hdiverted.1 ▸ hdiverted.2.2.1
    obtain ⟨t', hiter⟩ := completes rd hrs1 hdiverted.2.2.1
    have hpc := (iteration_jalr htest (htype' rd) hiter).2
    exact (targetFromBase_iff (linking instr rd) hrs1).mp (hpc.symm.trans (h t' hiter)) hdiverted
  constructor
  · intro h
    exact ⟨notDiverted_of rd₁ (h.fromBase rd₁ (by simp)),
      notDiverted_of rd₂ (h.fromBase rd₂ (by simp))⟩
  · intro ⟨hok₁, hok₂⟩
    have fromBase : ∀ rd ∈ [rd₁, rd₂], ∀ t',
        iteration (replaceCurrent instructions t (linking instr rd)) t = .ok t' →
          t'.programCounter = targetFromBase instr t := by
      intro rd hmem
      rcases List.mem_pair.mp hmem with rfl | rfl
      · exact fromBase_of rd hok₁
      · exact fromBase_of rd hok₂
    refine ⟨fun hrs1 rd _ hrd => completes rd hrs1 hrd, fun t₁ t₂ h₁ h₂ => ?_, fromBase⟩
    exact (fromBase_of rd₁ hok₁ t₁ h₁).trans (fromBase_of rd₂ hok₂ t₂ h₂).symm

/-- JALR through x1, with no link and with x5 for the link. -/
theorem linkIndependent_iff_return :
    LinkIndependent [{ sourceRegister1 := 1, type := .JALR }] {}
        { sourceRegister1 := 1, type := .JALR } 0 5 ↔
      ¬Diverted { sourceRegister1 := 1, type := .JALR } {} 0 ∧
        ¬Diverted { sourceRegister1 := 1, type := .JALR } {} 5 :=
  linkIndependent_iff _ _ _ _ _ rfl rfl

/-- JALR by 8 through x1, with x0 and with x1 for the link, from a thread of zeros: the
second goes to the link plus 8. -/
theorem not_linkIndependent_own_base :
    ¬∀ (instructions : List Instruction) (t : Thread) (instr : Instruction)
      (rd₁ rd₂ : RegisterIndex), loopTest instructions t = true → instr.type = .JALR →
        LinkIndependent instructions t instr rd₁ rd₂ := by
  intro h
  have hlinks := h [{ type := .JALR }] {}
    { immediate := 8, sourceRegister1 := 1, type := .JALR } 0 1 rfl rfl
  have hsame := hlinks.sameTarget _ _ rfl rfl
  exact absurd hsame (by decide)

end RiscvEmulator.Guarantees
