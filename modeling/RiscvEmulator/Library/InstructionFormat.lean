import Mathlib.Data.BitVec
import Mathlib.Tactic.IntervalCases

/-!
# 32-bit RISC-V instruction formats

The six base formats (R, I, S, B, U, J) as layouts of a 32-bit word. `packR` is
the only layout that places fields in the word; the other formats only distribute
their immediate over the fields of `packR`, so every round trip below reduces to
the one of `packR` and to the shuffle of a 12- or 20-bit immediate.

Branch and jump immediates are kept without their zero bit 0: `immB` holds offset
bits 12..1 and `immJ` offset bits 20..1.
-/
namespace RiscvEmulator.Library.InstructionFormat

abbrev Word := BitVec 32

def opcode (w : Word) : BitVec 7 := w.extractLsb' 0 7
def rd (w : Word) : BitVec 5 := w.extractLsb' 7 5
def funct3 (w : Word) : BitVec 3 := w.extractLsb' 12 3
def rs1 (w : Word) : BitVec 5 := w.extractLsb' 15 5
def rs2 (w : Word) : BitVec 5 := w.extractLsb' 20 5
def funct7 (w : Word) : BitVec 7 := w.extractLsb' 25 7

def immI (w : Word) : BitVec 12 := funct7 w ++ rs2 w
def immS (w : Word) : BitVec 12 := funct7 w ++ rd w
def immB (w : Word) : BitVec 12 :=
  (funct7 w).extractLsb' 6 1 ++ (rd w).extractLsb' 0 1 ++ (funct7 w).extractLsb' 0 6 ++
    (rd w).extractLsb' 1 4
def immU (w : Word) : BitVec 20 := funct7 w ++ rs2 w ++ rs1 w ++ funct3 w
def immJ (w : Word) : BitVec 20 :=
  (immU w).extractLsb' 19 1 ++ (immU w).extractLsb' 0 8 ++ (immU w).extractLsb' 8 1 ++
    (immU w).extractLsb' 9 10

def packR (funct7 : BitVec 7) (rs2 rs1 : BitVec 5) (funct3 : BitVec 3) (rd : BitVec 5)
    (opcode : BitVec 7) : Word :=
  funct7 ++ rs2 ++ rs1 ++ funct3 ++ rd ++ opcode

def packI (imm : BitVec 12) (rs1 : BitVec 5) (funct3 : BitVec 3) (rd : BitVec 5)
    (opcode : BitVec 7) : Word :=
  packR (imm.extractLsb' 5 7) (imm.extractLsb' 0 5) rs1 funct3 rd opcode

def packS (imm : BitVec 12) (rs2 rs1 : BitVec 5) (funct3 : BitVec 3) (opcode : BitVec 7) : Word :=
  packR (imm.extractLsb' 5 7) rs2 rs1 funct3 (imm.extractLsb' 0 5) opcode

def packB (imm : BitVec 12) (rs2 rs1 : BitVec 5) (funct3 : BitVec 3) (opcode : BitVec 7) : Word :=
  packR (imm.extractLsb' 11 1 ++ imm.extractLsb' 4 6) rs2 rs1 funct3
    (imm.extractLsb' 0 4 ++ imm.extractLsb' 10 1) opcode

def packU (imm : BitVec 20) (rd : BitVec 5) (opcode : BitVec 7) : Word :=
  packR (imm.extractLsb' 13 7) (imm.extractLsb' 8 5) (imm.extractLsb' 3 5) (imm.extractLsb' 0 3)
    rd opcode

def packJ (imm : BitVec 20) (rd : BitVec 5) (opcode : BitVec 7) : Word :=
  packU (imm.extractLsb' 19 1 ++ imm.extractLsb' 0 10 ++ imm.extractLsb' 10 1 ++
    imm.extractLsb' 11 8) rd opcode

/-- The two bits that tell the length of the instruction are the lowest of the opcode. -/
theorem low_bits_eq (w : Word) : w.extractLsb' 0 2 = (opcode w).extractLsb' 0 2 := by
  rw [opcode, BitVec.extractLsb'_extractLsb'_of_le (by decide)]

/-- The base formats. -/
inductive Format where
  | R | I | S | B | U | J
  deriving DecidableEq, Repr

namespace Format

def hasRd : Format → Bool
  | .R | .I | .U | .J => true
  | .S | .B => false

def hasRs1 : Format → Bool
  | .R | .I | .S | .B => true
  | .U | .J => false

def hasRs2 : Format → Bool
  | .R | .S | .B => true
  | .I | .U | .J => false

end Format

/-- A bit vector is its two parts. -/
theorem split_joined {m n : Nat} (x : BitVec (m + n)) :
    x.extractLsb' n m ++ x.extractLsb' 0 n = x := by
  have joined : x.extractLsb' n m ++ x.extractLsb' 0 n = x.extractLsb' 0 (m + n) :=
    BitVec.extractLsb'_append_extractLsb'_eq_extractLsb' (Nat.zero_add n).symm
  rw [joined, BitVec.extractLsb'_eq_self]

section Packed
variable (f7 : BitVec 7) (s2 s1 : BitVec 5) (f3 : BitVec 3) (d : BitVec 5) (op : BitVec 7)

@[simp] theorem opcode_packR : opcode (packR f7 s2 s1 f3 d op) = op :=
  BitVec.extractLsb'_append_eq_right

@[simp] theorem rd_packR : rd (packR f7 s2 s1 f3 d op) = d := by
  rw [rd, packR, BitVec.extractLsb'_append_eq_of_le (by decide)]
  exact BitVec.extractLsb'_append_eq_right

@[simp] theorem funct3_packR : funct3 (packR f7 s2 s1 f3 d op) = f3 := by
  rw [funct3, packR, BitVec.extractLsb'_append_eq_of_le (by decide),
    BitVec.extractLsb'_append_eq_of_le (by decide)]
  exact BitVec.extractLsb'_append_eq_right

@[simp] theorem rs1_packR : rs1 (packR f7 s2 s1 f3 d op) = s1 := by
  rw [rs1, packR, BitVec.extractLsb'_append_eq_of_le (by decide),
    BitVec.extractLsb'_append_eq_of_le (by decide), BitVec.extractLsb'_append_eq_of_le (by decide)]
  exact BitVec.extractLsb'_append_eq_right

@[simp] theorem rs2_packR : rs2 (packR f7 s2 s1 f3 d op) = s2 := by
  rw [rs2, packR, BitVec.extractLsb'_append_eq_of_le (by decide),
    BitVec.extractLsb'_append_eq_of_le (by decide), BitVec.extractLsb'_append_eq_of_le (by decide),
    BitVec.extractLsb'_append_eq_of_le (by decide)]
  exact BitVec.extractLsb'_append_eq_right

@[simp] theorem funct7_packR : funct7 (packR f7 s2 s1 f3 d op) = f7 := by
  rw [funct7, packR, BitVec.extractLsb'_append_eq_of_le (by decide),
    BitVec.extractLsb'_append_eq_of_le (by decide), BitVec.extractLsb'_append_eq_of_le (by decide),
    BitVec.extractLsb'_append_eq_of_le (by decide)]
  exact BitVec.extractLsb'_append_eq_left

/-- A word is its six fields: the R layout loses no bit. -/
theorem packR_fields (w : Word) :
    packR (funct7 w) (rs2 w) (rs1 w) (funct3 w) (rd w) (opcode w) = w := by
  have h20 : funct7 w ++ rs2 w = w.extractLsb' 20 12 :=
    BitVec.extractLsb'_append_extractLsb'_eq_extractLsb' rfl
  have h15 : w.extractLsb' 20 12 ++ rs1 w = w.extractLsb' 15 17 :=
    BitVec.extractLsb'_append_extractLsb'_eq_extractLsb' rfl
  have h12 : w.extractLsb' 15 17 ++ funct3 w = w.extractLsb' 12 20 :=
    BitVec.extractLsb'_append_extractLsb'_eq_extractLsb' rfl
  have h7 : w.extractLsb' 12 20 ++ rd w = w.extractLsb' 7 25 :=
    BitVec.extractLsb'_append_extractLsb'_eq_extractLsb' rfl
  have h0 : w.extractLsb' 7 25 ++ opcode w = w.extractLsb' 0 32 :=
    BitVec.extractLsb'_append_extractLsb'_eq_extractLsb' rfl
  rw [packR, h20, h15, h12, h7, h0]
  exact BitVec.extractLsb'_eq_self

end Packed

section Immediates
variable (s2 s1 : BitVec 5) (f3 : BitVec 3) (d : BitVec 5) (op : BitVec 7)

@[simp] theorem opcode_packI (imm : BitVec 12) : opcode (packI imm s1 f3 d op) = op := by
  simp [packI]

@[simp] theorem rd_packI (imm : BitVec 12) : rd (packI imm s1 f3 d op) = d := by simp [packI]

@[simp] theorem funct3_packI (imm : BitVec 12) : funct3 (packI imm s1 f3 d op) = f3 := by
  simp [packI]

@[simp] theorem rs1_packI (imm : BitVec 12) : rs1 (packI imm s1 f3 d op) = s1 := by simp [packI]

@[simp] theorem immI_packI (imm : BitVec 12) : immI (packI imm s1 f3 d op) = imm := by
  rw [immI, packI, funct7_packR, rs2_packR]
  exact @split_joined 7 5 imm

theorem packI_fields (w : Word) :
    packI (immI w) (rs1 w) (funct3 w) (rd w) (opcode w) = w := by
  have high : (immI w).extractLsb' 5 7 = funct7 w := BitVec.extractLsb'_append_eq_left
  have low : (immI w).extractLsb' 0 5 = rs2 w := BitVec.extractLsb'_append_eq_right
  rw [packI, high, low, packR_fields]

@[simp] theorem opcode_packS (imm : BitVec 12) : opcode (packS imm s2 s1 f3 op) = op := by
  simp [packS]

@[simp] theorem funct3_packS (imm : BitVec 12) : funct3 (packS imm s2 s1 f3 op) = f3 := by
  simp [packS]

@[simp] theorem rs1_packS (imm : BitVec 12) : rs1 (packS imm s2 s1 f3 op) = s1 := by simp [packS]

@[simp] theorem rs2_packS (imm : BitVec 12) : rs2 (packS imm s2 s1 f3 op) = s2 := by simp [packS]

@[simp] theorem immS_packS (imm : BitVec 12) : immS (packS imm s2 s1 f3 op) = imm := by
  rw [immS, packS, funct7_packR, rd_packR]
  exact @split_joined 7 5 imm

theorem packS_fields (w : Word) :
    packS (immS w) (rs2 w) (rs1 w) (funct3 w) (opcode w) = w := by
  have high : (immS w).extractLsb' 5 7 = funct7 w := BitVec.extractLsb'_append_eq_left
  have low : (immS w).extractLsb' 0 5 = rd w := BitVec.extractLsb'_append_eq_right
  rw [packS, high, low, packR_fields]

@[simp] theorem opcode_packB (imm : BitVec 12) : opcode (packB imm s2 s1 f3 op) = op := by
  simp [packB]

@[simp] theorem funct3_packB (imm : BitVec 12) : funct3 (packB imm s2 s1 f3 op) = f3 := by
  simp [packB]

@[simp] theorem rs1_packB (imm : BitVec 12) : rs1 (packB imm s2 s1 f3 op) = s1 := by simp [packB]

@[simp] theorem rs2_packB (imm : BitVec 12) : rs2 (packB imm s2 s1 f3 op) = s2 := by simp [packB]

@[simp] theorem immB_packB (imm : BitVec 12) : immB (packB imm s2 s1 f3 op) = imm := by
  rw [immB, packB, funct7_packR, rd_packR]
  apply BitVec.eq_of_getLsbD_eq
  intro i hi
  simp only [BitVec.getLsbD_append, BitVec.getLsbD_extractLsb']
  interval_cases i <;> simp

theorem packB_fields (w : Word) :
    packB (immB w) (rs2 w) (rs1 w) (funct3 w) (opcode w) = w := by
  have high : (immB w).extractLsb' 11 1 ++ (immB w).extractLsb' 4 6 = funct7 w := by
    apply BitVec.eq_of_getLsbD_eq
    intro i hi
    simp only [immB, BitVec.getLsbD_append, BitVec.getLsbD_extractLsb']
    interval_cases i <;> simp
  have low : (immB w).extractLsb' 0 4 ++ (immB w).extractLsb' 10 1 = rd w := by
    apply BitVec.eq_of_getLsbD_eq
    intro i hi
    simp only [immB, BitVec.getLsbD_append, BitVec.getLsbD_extractLsb']
    interval_cases i <;> simp
  rw [packB, high, low, packR_fields]

@[simp] theorem opcode_packU (imm : BitVec 20) : opcode (packU imm d op) = op := by simp [packU]

@[simp] theorem rd_packU (imm : BitVec 20) : rd (packU imm d op) = d := by simp [packU]

@[simp] theorem immU_packU (imm : BitVec 20) : immU (packU imm d op) = imm := by
  have h8 : imm.extractLsb' 13 7 ++ imm.extractLsb' 8 5 = imm.extractLsb' 8 12 :=
    BitVec.extractLsb'_append_extractLsb'_eq_extractLsb' rfl
  have h3 : imm.extractLsb' 8 12 ++ imm.extractLsb' 3 5 = imm.extractLsb' 3 17 :=
    BitVec.extractLsb'_append_extractLsb'_eq_extractLsb' rfl
  have h0 : imm.extractLsb' 3 17 ++ imm.extractLsb' 0 3 = imm.extractLsb' 0 20 :=
    BitVec.extractLsb'_append_extractLsb'_eq_extractLsb' rfl
  rw [immU, packU, funct7_packR, rs2_packR, rs1_packR, funct3_packR, h8, h3, h0]
  exact BitVec.extractLsb'_eq_self

theorem packU_fields (w : Word) : packU (immU w) (rd w) (opcode w) = w := by
  have h13 : (immU w).extractLsb' 13 7 = funct7 w := by
    rw [immU, BitVec.extractLsb'_append_eq_of_le (by decide),
      BitVec.extractLsb'_append_eq_of_le (by decide)]
    exact BitVec.extractLsb'_append_eq_left
  have h8 : (immU w).extractLsb' 8 5 = rs2 w := by
    rw [immU, BitVec.extractLsb'_append_eq_of_le (by decide),
      BitVec.extractLsb'_append_eq_of_le (by decide)]
    exact BitVec.extractLsb'_append_eq_right
  have h3 : (immU w).extractLsb' 3 5 = rs1 w := by
    rw [immU, BitVec.extractLsb'_append_eq_of_le (by decide)]
    exact BitVec.extractLsb'_append_eq_right
  have h0 : (immU w).extractLsb' 0 3 = funct3 w := BitVec.extractLsb'_append_eq_right
  rw [packU, h13, h8, h3, h0, packR_fields]

@[simp] theorem opcode_packJ (imm : BitVec 20) : opcode (packJ imm d op) = op := by simp [packJ]

@[simp] theorem rd_packJ (imm : BitVec 20) : rd (packJ imm d op) = d := by simp [packJ]

@[simp] theorem immJ_packJ (imm : BitVec 20) : immJ (packJ imm d op) = imm := by
  rw [immJ, packJ, immU_packU]
  apply BitVec.eq_of_getLsbD_eq
  intro i hi
  simp only [BitVec.getLsbD_append, BitVec.getLsbD_extractLsb']
  interval_cases i <;> simp

theorem packJ_fields (w : Word) : packJ (immJ w) (rd w) (opcode w) = w := by
  have shuffle : (immJ w).extractLsb' 19 1 ++ (immJ w).extractLsb' 0 10 ++
      (immJ w).extractLsb' 10 1 ++ (immJ w).extractLsb' 11 8 = immU w := by
    apply BitVec.eq_of_getLsbD_eq
    intro i hi
    simp only [immJ, BitVec.getLsbD_append, BitVec.getLsbD_extractLsb']
    interval_cases i <;> simp
  rw [packJ, shuffle, packU_fields]

end Immediates
section Xor
variable (w v : Word)

/-! Flipping bits of a word flips them in its fields. -/

theorem opcode_xor : opcode (w ^^^ v) = opcode w ^^^ opcode v := BitVec.extractLsb'_xor

theorem rd_xor : rd (w ^^^ v) = rd w ^^^ rd v := BitVec.extractLsb'_xor

theorem funct3_xor : funct3 (w ^^^ v) = funct3 w ^^^ funct3 v := BitVec.extractLsb'_xor

theorem rs1_xor : rs1 (w ^^^ v) = rs1 w ^^^ rs1 v := BitVec.extractLsb'_xor

theorem rs2_xor : rs2 (w ^^^ v) = rs2 w ^^^ rs2 v := BitVec.extractLsb'_xor

theorem funct7_xor : funct7 (w ^^^ v) = funct7 w ^^^ funct7 v := BitVec.extractLsb'_xor

end Xor
end RiscvEmulator.Library.InstructionFormat
