import RiscvEmulator.Guarantees.DecoderRows

/-!
# How a word leaves the decoder

A sub-decoder reads the fields of its format and settles on a type, or it throws the
exception for the word under the name of its family. One statement of `decodeOpFP` throws
a pointer to it; `UncaughtWord` says which words reach it.
-/
namespace RiscvEmulator.Guarantees
open Source Spec Library InstructionFormat

/-- The fields were read, and only the type was chosen since. -/
def SettlesOn (fields r : Instruction) : Prop := r = { fields with type := r.type }

/-- Besides, the union was left or written. -/
def SettlesOnUnion (fields r : Instruction) : Prop :=
  SettlesOn { fields with immediate := r.immediate } r

/-- The words that reach `throw new`: FMV.X/FCLASS with a reserved funct3. -/
def UncaughtWord (w : BitVec 32) : Prop :=
  opcode w = opFP ∧ (funct7 w).extractLsb' 1 6 = 0b111000 ∧ funct3 w ≠ 0b000 ∧ funct3 w ≠ 0b001

instance (w : BitVec 32) : Decidable (UncaughtWord w) :=
  inferInstanceAs (Decidable (_ ∧ _ ∧ _ ∧ _))

/-- What the sub-decoder named `clazz` makes of the word. -/
inductive Outcome (w : BitVec 32) (clazz : String) (settled : Instruction → Prop) :
    Except Thrown Instruction → Prop where
  | accepted (r : Instruction) (h : settled r) : Outcome w clazz settled (.ok r)
  | rejected : Outcome w clazz settled (throwUnknown w clazz)
  | uncaught (h : UncaughtWord w) : Outcome w clazz settled (throwNewUnknown w clazz)

section Outcomes
variable {w : BitVec 32} {clazz : String} {settled : Instruction → Prop}
  {fields r : Instruction} {result : Except Thrown Instruction}

theorem Outcome.settles (h : Outcome w clazz settled result) (hok : result = .ok r) :
    settled r := by
  cases h with
  | accepted r' hsettled => rwa [← Except.ok.inj hok]
  | rejected | uncaught => cases hok

theorem Outcome.throws {thrown : Thrown} (h : Outcome w clazz settled result)
    (hw : ¬UncaughtWord w) (hthrow : result = .error thrown) :
    thrown = .value (.unknownInstruction w clazz) := by
  cases h with
  | accepted r hsettled => cases hthrow
  | rejected => exact (Except.error.inj hthrow).symm
  | uncaught huncaught => exact absurd huncaught hw

/-- Whatever was settled on. -/
theorem Outcome.forget (h : Outcome w clazz settled result) :
    Outcome w clazz (fun _ => True) result := by
  cases h with
  | accepted r hsettled => exact .accepted r trivial
  | rejected => exact .rejected
  | uncaught hw => exact .uncaught hw

variable (w clazz)

theorem outcome_setType (fields : Instruction) (t : InstructionType) :
    Outcome w clazz (SettlesOn fields) (setType fields t) := .accepted _ rfl

/-- A write of the union before the type is chosen. -/
theorem outcome_setUnion (fields : Instruction) (union : BitVec 32) (t : InstructionType) :
    Outcome w clazz (SettlesOnUnion fields)
      (setType { fields with immediate := union } t) := .accepted _ rfl

/-- No write of it. -/
theorem outcome_keepUnion (fields : Instruction) (t : InstructionType) :
    Outcome w clazz (SettlesOnUnion fields) (setType fields t) := .accepted _ rfl

/-- Nor a type: the end of a switch that lacks no case. -/
theorem outcome_ok (fields : Instruction) :
    Outcome w clazz (SettlesOnUnion fields) (.ok fields) := .accepted _ rfl

end Outcomes

section SubDecoders
variable (w : BitVec 32) (instr : Instruction)

theorem outcome_decodeBranch :
    Outcome w "BRANCH" (SettlesOn (readFieldsB w instr).1) (decodeBranch w instr) := by
  unfold decodeBranch
  dsimp only
  split
  case h_7 => exact .rejected
  all_goals exact outcome_setType _ _ _ _

theorem outcome_decodeLoad :
    Outcome w "LOAD" (SettlesOn (readFieldsI w instr).1) (decodeLoad w instr) := by
  unfold decodeLoad
  dsimp only
  split
  case h_8 => exact .rejected
  all_goals exact outcome_setType _ _ _ _

theorem outcome_decodeStore :
    Outcome w "STORE" (SettlesOn (readFieldsS w instr).1) (decodeStore w instr) := by
  unfold decodeStore
  dsimp only
  split
  case h_5 => exact .rejected
  all_goals exact outcome_setType _ _ _ _

/-- It throws nothing, so under whatever name. -/
theorem outcome_decodeOpImm (clazz : String) :
    Outcome w clazz (SettlesOnUnion (readFieldsI w instr).1) (decodeOpImm w instr) := by
  unfold decodeOpImm
  dsimp only
  split
  case h_6 =>
    split
    · exact outcome_setUnion _ _ (readFieldsI w instr).1 _ _
    · exact outcome_keepUnion _ _ _ _
  case h_9 => exact outcome_ok _ _ _
  all_goals exact outcome_keepUnion _ _ _ _

theorem outcome_decodeOpImm32 :
    Outcome w "OP-IMM32" (SettlesOnUnion (readFieldsI w instr).1) (decodeOpImm32 w instr) := by
  unfold decodeOpImm32
  dsimp only
  split
  case h_3 =>
    split
    · exact outcome_setUnion _ _ (readFieldsI w instr).1 _ _
    · exact outcome_keepUnion _ _ _ _
  case h_4 => exact .rejected
  all_goals exact outcome_keepUnion _ _ _ _

theorem outcome_decodeOp :
    Outcome w "OP" (SettlesOn (readFieldsR w instr).1) (decodeOp w instr) := by
  unfold decodeOp
  dsimp only
  split
  case h_4 => exact .rejected
  all_goals
    split
    all_goals first
    | exact outcome_setType _ _ _ _
    | exact .rejected

theorem outcome_decodeOp32 :
    Outcome w "OP-32" (SettlesOn (readFieldsR w instr).1) (decodeOp32 w instr) := by
  unfold decodeOp32
  dsimp only
  split
  case h_4 => exact .rejected
  all_goals
    split
    all_goals first
    | exact outcome_setType _ _ _ _
    | exact .rejected

theorem outcome_decodeMiscMem :
    Outcome w "MISC-MEM" (SettlesOnUnion (readFieldsI w instr).1) (decodeMiscMem w instr) := by
  unfold decodeMiscMem
  dsimp only
  split
  case h_1 => split <;> exact outcome_setUnion _ _ (readFieldsI w instr).1 _ _
  case h_2 => exact outcome_keepUnion _ _ _ _
  case h_3 => exact .rejected

theorem outcome_decodeSystem :
    Outcome w "SYSTEM" (SettlesOn { (readFieldsI w instr).1 with immediate := 0 })
      (decodeSystem w instr) := by
  unfold decodeSystem
  dsimp only
  split
  case h_1 =>
    split
    case h_3 => exact .rejected
    all_goals exact outcome_setType _ _ _ _
  case h_8 => exact .rejected
  all_goals exact outcome_setType _ _ _ _

theorem outcome_decodeAMO :
    Outcome w "AMO" (SettlesOn { (readFieldsR w instr).1 with
      immediate := (getFunct7 w &&& 0b11).setWidth 32 }) (decodeAMO w instr) := by
  unfold decodeAMO
  dsimp only
  split
  case h_3 => exact .rejected
  all_goals
    split
    case h_12 => exact .rejected
    all_goals exact outcome_setType _ _ _ _

theorem outcome_decodeLoadFP :
    Outcome w "LOAD-FP" (SettlesOn (readFieldsI w instr).1) (decodeLoadFP w instr) := by
  unfold decodeLoadFP
  dsimp only
  split
  case h_3 => exact .rejected
  all_goals exact outcome_setType _ _ _ _

theorem outcome_decodeStoreFP :
    Outcome w "STORE-FP" (SettlesOn (readFieldsS w instr).1) (decodeStoreFP w instr) := by
  unfold decodeStoreFP
  dsimp only
  split
  case h_3 => exact .rejected
  all_goals exact outcome_setType _ _ _ _

theorem outcome_decodeFPFusedMultiplyAdd (op : Opcode) :
    Outcome w "FP-FUSED-MULTIPLY-ADD"
      (SettlesOn (((readFieldsR w instr).1.setRoundingMode (getFunct3 w)).setSourceRegister3
        (getFunct7 w >>> 2))) (decodeFPFusedMultiplyAdd w op instr) := by
  unfold decodeFPFusedMultiplyAdd
  dsimp only
  split
  case h_3 => exact .rejected
  all_goals
    split
    case h_5 => exact .rejected
    all_goals exact outcome_setType _ _ _ _

/-- The masked funct7 of the statement that throws a pointer. -/
theorem clearBit_funct7 (f : BitVec 7) :
    clearBit (f.setWidth 8) 0 = 0b1110000#8 ↔ f.extractLsb' 1 6 = 0b111000 := by
  revert f
  decide

variable {w} in
theorem outcome_decodeOpFP (hop : opcode w = opFP) :
    Outcome w "OP-FP" (SettlesOn ((readFieldsR w instr).1.setRoundingMode (getFunct3 w)))
      (decodeOpFP w instr) := by
  unfold decodeOpFP
  dsimp only
  split
  case h_1 | h_2 | h_3 => exact outcome_setType _ _ _ _
  case h_9 h7 =>
    split
    case h_1 | h_2 => exact outcome_setType _ _ _ _
    case h_3 h0 h1 =>
      have h7 := (clearBit_funct7 (funct7 w)).mp ((getFunct7_eq w) ▸ h7)
      have hne {c : BitVec 3} (h : (readFieldsR w instr).2.1 ≠ c.setWidth 8) : funct3 w ≠ c := by
        rintro rfl
        exact h (getFunct3_eq w)
      exact .uncaught ⟨hop, h7, hne h0, hne h1⟩
  case h_13 => exact .rejected
  all_goals
    split
    all_goals first
    | exact outcome_setType _ _ _ _
    | exact .rejected

/-- The converse: such a word makes the decoder throw a pointer. -/
theorem decodeOpFP_uncaught (hw : UncaughtWord w) :
    decodeOpFP w instr = throwNewUnknown w "OP-FP" := by
  obtain ⟨-, h7, h0, h1⟩ := hw
  unfold decodeOpFP readFieldsR
  simp only [getFunct7_eq, getFunct3_eq, (clearBit_funct7 _).mpr h7]
  split
  next h3 => exact absurd (eq_of_setWidth (by decide) h3) h0
  next h3 => exact absurd (eq_of_setWidth (by decide) h3) h1
  next => rfl

end SubDecoders

/-- The name the sub-decoder of an opcode gives in its exceptions. -/
def familyName (op : BitVec 7) : String :=
  if op = opBranch then "BRANCH"
  else if op = opLoad then "LOAD"
  else if op = opStore then "STORE"
  else if op = opImm32 then "OP-IMM32"
  else if op = opOp then "OP"
  else if op = opOp32 then "OP-32"
  else if op = opMiscMem then "MISC-MEM"
  else if op = opSystem then "SYSTEM"
  else if op = opAmo then "AMO"
  else if op = opLoadFP then "LOAD-FP"
  else if op = opStoreFP then "STORE-FP"
  else if op ∈ [opMadd, opMsub, opNmadd, opNmsub] then "FP-FUSED-MULTIPLY-ADD"
  else if op = opFP then "OP-FP"
  else "unknown"

theorem familyName_unknown {op : BitVec 7} (hop : op ∉ knownOpcodes) :
    familyName op = "unknown" := by
  simp only [knownOpcodes, List.mem_cons, List.not_mem_nil, or_false, not_or] at hop
  simp [familyName, hop]

/-- Whatever is thrown at a word names the family of its opcode. -/
theorem outcome_decodeInstruction (w : BitVec 32) (instr : Instruction) :
    Outcome w (familyName (opcode w)) (fun _ => True) (decodeInstruction instr w) := by
  have hdispatched := dispatched w instr
  generalize decodeInstruction instr w = result at hdispatched
  cases hdispatched with
  | lui | auipc | jal | jalr => exact .accepted _ trivial
  | branch hop => rw [hop]; exact (outcome_decodeBranch w instr).forget
  | load hop => rw [hop]; exact (outcome_decodeLoad w instr).forget
  | store hop => rw [hop]; exact (outcome_decodeStore w instr).forget
  | opImm hop => exact (outcome_decodeOpImm w instr _).forget
  | opImm32 hop => rw [hop]; exact (outcome_decodeOpImm32 w instr).forget
  | op hop => rw [hop]; exact (outcome_decodeOp w instr).forget
  | op32 hop => rw [hop]; exact (outcome_decodeOp32 w instr).forget
  | miscMem hop => rw [hop]; exact (outcome_decodeMiscMem w instr).forget
  | system hop => rw [hop]; exact (outcome_decodeSystem w instr).forget
  | amo hop => rw [hop]; exact (outcome_decodeAMO w instr).forget
  | loadFP hop => rw [hop]; exact (outcome_decodeLoadFP w instr).forget
  | storeFP hop => rw [hop]; exact (outcome_decodeStoreFP w instr).forget
  | madd hop | msub hop | nmadd hop | nmsub hop =>
    rw [hop]
    exact (outcome_decodeFPFusedMultiplyAdd w instr _).forget
  | opFP hop =>
    rw [hop]
    exact (outcome_decodeOpFP instr hop).forget
  | unknown hop =>
    rw [familyName_unknown hop]
    exact .rejected

end RiscvEmulator.Guarantees
