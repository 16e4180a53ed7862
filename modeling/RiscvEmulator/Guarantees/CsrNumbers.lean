import RiscvEmulator.Guarantees.CanonicalWords

/-!
# What is left of a CSR number

`decodeSystem` reads the immediate, which for a CSR instruction is the CSR number, and
clears it before the switch, for ECALL and EBREAK and for the CSR instructions alike. Two
CSR programs therefore decode to one list exactly when their words agree in bits 0..19.
-/
namespace RiscvEmulator.Guarantees
open Source Spec Library InstructionFormat WordBytes ExceptList

variable {v w : BitVec 32} {instr : Instruction} {t : InstructionType}

/-- A word of CSRRW, CSRRS, CSRRC or of their immediate forms, with any operands. -/
def IsCsrWord (w : BitVec 32) : Prop := ∃ t, extensionOf t = .zicsr ∧ (encodingOf t).Matches w

/-- Bits 20..31 of a CSR instruction. -/
def csrNumber (w : BitVec 32) : BitVec 12 := immI w

/-- Bits 0..19: the opcode, rd, funct3 and rs1 or the five-bit immediate. -/
def lowFields (w : BitVec 32) : BitVec 20 := w.extractLsb' 0 20

/-- The byte string is whole words, each of them a CSR instruction. -/
def IsCsrProgram (program : List Byte) : Prop :=
  program.length % 4 = 0 ∧ ∀ w ∈ words program, IsCsrWord w

theorem isCsrWord_fields (h : IsCsrWord w) :
    opcode w = opSystem ∧ ∃ t, encodingOf t = .i opSystem (funct3 w) := by
  obtain ⟨t, hzicsr, hmatch⟩ := h
  have hrow : opcode w = opSystem ∧ encodingOf t = .i opSystem (funct3 w) := by
    cases t <;> cases hzicsr <;> exact ⟨hmatch.1, by rw [hmatch.2]; rfl⟩
  exact ⟨hrow.1, t, hrow.2⟩

theorem decodeSystem_csr (h : encodingOf t = .i opSystem (funct3 w)) :
    decodeSystem w instr =
      .ok { (readFieldsI w instr).1 with immediate := 0, type := t } := by
  generalize h3 : funct3 w = f3 at h
  simp only [decodeSystem, readFieldsI, getFunct3_eq, h3]
  cases t <;> cases h <;> rfl

/-- Nothing of the CSR number is left in the instruction. -/
theorem decodeWord_csr (hop : opcode w = opSystem)
    (h : encodingOf t = .i opSystem (funct3 w)) :
    decodeWord w = .ok {
      destinationRegister := (rd w).setWidth 8
      sourceRegister1 := (rs1 w).setWidth 8
      type := t } := by
  have hlow := low_bits_eq w
  rw [hop] at hlow
  rw [decodeWord_of_low_bits hlow, (Dispatched.system hop).eq, decodeSystem_csr h, readFieldsI,
    getDestinationRegister_eq, getSourceRegister1_eq]

theorem lowFields_eq (w : BitVec 32) : lowFields w = rs1 w ++ funct3 w ++ rd w ++ opcode w := by
  have h12 : rs1 w ++ funct3 w = w.extractLsb' 12 8 :=
    BitVec.extractLsb'_append_extractLsb'_eq_extractLsb' rfl
  have h7 : w.extractLsb' 12 8 ++ rd w = w.extractLsb' 7 13 :=
    BitVec.extractLsb'_append_extractLsb'_eq_extractLsb' rfl
  have h0 : w.extractLsb' 7 13 ++ opcode w = w.extractLsb' 0 20 :=
    BitVec.extractLsb'_append_extractLsb'_eq_extractLsb' rfl
  rw [h12, h7, h0, lowFields]

theorem field_of_lowFields (h : lowFields v = lowFields w) (start len : Nat)
    (hle : start + len ≤ 20) : v.extractLsb' start len = w.extractLsb' start len := by
  have hfield (u : BitVec 32) : u.extractLsb' start len = (lowFields u).extractLsb' start len := by
    rw [lowFields, BitVec.extractLsb'_extractLsb'_of_le hle]
  rw [hfield v, hfield w, h]

theorem register_field_injective {a b : BitVec 5} (h : a.setWidth 8 = b.setWidth 8) : a = b := by
  rw [eq_of_setWidth (by decide) h, BitVec.setWidth_setWidth_of_le _ (by decide),
    BitVec.setWidth_eq]

/-- CSR words decode to one instruction exactly when they agree in bits 0..19. -/
theorem decodeWord_csr_eq_iff (hv : IsCsrWord v) (hw : IsCsrWord w) :
    decodeWord v = decodeWord w ↔ lowFields v = lowFields w := by
  obtain ⟨hopv, tv, htv⟩ := isCsrWord_fields hv
  obtain ⟨hopw, tw, htw⟩ := isCsrWord_fields hw
  constructor
  · intro heq
    rw [decodeWord_csr hopv htv, decodeWord_csr hopw htw] at heq
    simp only [Except.ok.injEq, Instruction.mk.injEq, true_and] at heq
    obtain ⟨hrd, hrs1, rfl⟩ := heq
    have hfunct3 : funct3 v = funct3 w := (Encoding.i.inj (htv.symm.trans htw)).2
    rw [lowFields_eq, lowFields_eq, hopv, hopw, hfunct3, register_field_injective hrd,
      register_field_injective hrs1]
  · intro hlow
    have hrd : rd v = rd w := field_of_lowFields hlow 7 5 (by decide)
    have hfunct3 : funct3 v = funct3 w := field_of_lowFields hlow 12 3 (by decide)
    have hrs1 : rs1 v = rs1 w := field_of_lowFields hlow 15 5 (by decide)
    rw [decodeWord_csr hopv htv, decodeWord_csr hopw (hfunct3 ▸ htv), hrd, hrs1]

/-- The decoded list tells the CSR numbers of the two programs apart. -/
def CsrNumbersRecovered (native : Endian) (p q : List Byte) : Prop :=
  (words p).map csrNumber ≠ (words q).map csrNumber →
    decodeInstructions native p ≠ decodeInstructions native q

/-- The programs decode to one list exactly when they agree in bits 0..19 throughout. -/
theorem decodeInstructions_csr_eq_iff (native : Endian) {p q : List Byte} (hp : IsCsrProgram p)
    (hq : IsCsrProgram q) :
    decodeInstructions native p = decodeInstructions native q ↔
      (words p).map lowFields = (words q).map lowFields := by
  have haccept : ∀ w ∈ words p, ∃ instr, decodeWord w = .ok instr := by
    intro w hw
    obtain ⟨hop, t, ht⟩ := isCsrWord_fields (hp.2 w hw)
    exact ⟨_, decodeWord_csr hop ht⟩
  rw [decodeInstructions_eq native p hp.1, decodeInstructions_eq native q hq.1,
    mapM_eq_iff_map haccept]
  exact map_eq_iff_map_eq fun v hv w hw => decodeWord_csr_eq_iff (hp.2 v hv) (hq.2 w hw)

/-- Programs with different CSR numbers are told apart exactly when they also differ in
some instruction's other bits, or in their length. -/
theorem csrNumbersRecovered_iff (native : Endian) (p q : List Byte) (hp : IsCsrProgram p)
    (hq : IsCsrProgram q) :
    CsrNumbersRecovered native p q ↔
      ((words p).map csrNumber ≠ (words q).map csrNumber →
        (words p).map lowFields ≠ (words q).map lowFields) := by
  unfold CsrNumbersRecovered
  rw [Ne, Ne, decodeInstructions_csr_eq_iff native hp hq]

theorem isCsrProgram_wordBytes (h : IsCsrWord w) : IsCsrProgram (wordBytes w) := by
  have hword : words (wordBytes w) = [w] := by
    rw [← List.append_nil (wordBytes w), words_wordBytes_append]
    rfl
  refine ⟨by simp, fun u hu => ?_⟩
  rw [hword, List.mem_singleton] at hu
  rw [hu]
  exact h

/-- CSRRW of fflags to x5 and of frm to x6. -/
theorem csrNumbersRecovered_iff_csrrw :
    CsrNumbersRecovered .little (wordBytes 0x001012f3#32) (wordBytes 0x00201373#32) ↔
      ((words (wordBytes 0x001012f3#32)).map csrNumber ≠
          (words (wordBytes 0x00201373#32)).map csrNumber →
        (words (wordBytes 0x001012f3#32)).map lowFields ≠
          (words (wordBytes 0x00201373#32)).map lowFields) :=
  csrNumbersRecovered_iff .little _ _ (isCsrProgram_wordBytes ⟨.CSRRW, rfl, rfl, rfl⟩)
    (isCsrProgram_wordBytes ⟨.CSRRW, rfl, rfl, rfl⟩)

/-- CSRRW of fflags and CSRRW of frm decode to the same instruction. -/
theorem not_csrNumbersRecovered :
    ¬∀ (native : Endian) (p q : List Byte), IsCsrProgram p → IsCsrProgram q →
      CsrNumbersRecovered native p q := by
  intro h
  have hflags : IsCsrProgram (wordBytes 0x00101073#32) :=
    isCsrProgram_wordBytes ⟨.CSRRW, rfl, rfl, rfl⟩
  have hmode : IsCsrProgram (wordBytes 0x00201073#32) :=
    isCsrProgram_wordBytes ⟨.CSRRW, rfl, rfl, rfl⟩
  exact h .little _ _ hflags hmode (by decide) rfl

end RiscvEmulator.Guarantees
