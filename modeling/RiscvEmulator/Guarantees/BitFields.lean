import RiscvEmulator.Library.SignedResidue
import RiscvEmulator.Source.CheckedBits

/-!
# Bit fields and sign extension, type by type

A field of a type that is not narrow is read by a shift of the full width exactly when it
is the whole value; every other field, and every field of a narrow type, is read as a
quotient and a remainder. Sign extension never shifts by the width, and gives the signed
residue of the bits it keeps.
-/
namespace RiscvEmulator.Guarantees
open Source Library

/-- The types the utilities are used with. -/
inductive UnsignedType where
  | uint8 | uint16 | uint32 | uint64
  deriving DecidableEq, Repr

@[simp] def UnsignedType.width : UnsignedType → Nat
  | .uint8 => 8
  | .uint16 => 16
  | .uint32 => 32
  | .uint64 => 64

/-- The field is read without undefined behaviour, as the quotient and remainder it is. -/
def FieldExtracted {w : Nat} (value : BitVec w) (firstBit lastBit : Nat) : Prop :=
  ∃ field, Checked.getBits value firstBit lastBit = .ok field ∧
    field.toNat = value.toNat / 2 ^ firstBit % 2 ^ (lastBit - firstBit + 1)

/-- The mask is made without undefined behaviour. -/
def OnesMasked (w count : Nat) : Prop :=
  ∃ mask, Checked.oneBits w count = .ok mask ∧ mask.toNat = 2 ^ count - 1

section Widths
variable (type : UnsignedType)

/-- Narrow types leave room in `int`. -/
theorem narrow_fits {count : Nat} (hcount : count ≤ type.width) :
    type.width < 32 → count + 1 < 32 := by
  cases type <;> simp only [UnsignedType.width] at hcount ⊢ <;> omega

/-- A count up to the width reaches the promoted width only in a type that is not narrow. -/
theorem oneBitsDefined_iff {count : Nat} (hcount : count ≤ type.width) :
    oneBitsDefined type.width count ↔ ¬(32 ≤ type.width ∧ count = type.width) := by
  unfold oneBitsDefined promotedWidth
  omega

end Widths

section Masks
variable (type : UnsignedType) {count : Nat}

theorem onesMasked_iff (hcount : count ≤ type.width) :
    OnesMasked type.width count ↔ ¬(32 ≤ type.width ∧ count = type.width) := by
  have hfits := narrow_fits type hcount
  rw [← oneBitsDefined_iff type hcount]
  constructor
  · rintro ⟨mask, hmask, -⟩
    by_contra hundefined
    rw [Checked.oneBits_undefined (Nat.not_lt.mp hundefined)] at hmask
    cases hmask
  · intro hdefined
    exact ⟨_, Checked.oneBits_ok hfits hdefined, toNat_oneBits hcount⟩

variable (value : BitVec type.width) {firstBit lastBit : Nat}

theorem fieldExtracted_iff_onesMasked (hfirst : firstBit ≤ lastBit) (hlast : lastBit < type.width) :
    FieldExtracted value firstBit lastBit ↔ OnesMasked type.width (lastBit - firstBit + 1) := by
  have hpromoted := le_promotedWidth type.width
  have hcount : lastBit - firstBit + 1 ≤ type.width := by omega
  have hfits := narrow_fits type hcount
  rw [onesMasked_iff type hcount, ← oneBitsDefined_iff type hcount]
  constructor
  · rintro ⟨field, hfield, -⟩
    by_contra hundefined
    rw [Checked.getBits_undefined value (by omega) (Nat.not_lt.mp hundefined)] at hfield
    cases hfield
  · intro hdefined
    exact ⟨_, Checked.getBits_ok value hfits ⟨by omega, hdefined⟩, toNat_getBits value hfirst hlast⟩

end Masks

/-- A field is extracted exactly when it is not the whole of a value that is not narrow, and
so many ones are a mask exactly when they are not all the bits of such a type. -/
theorem field_extraction_iff (type : UnsignedType) (value : BitVec type.width)
    (firstBit lastBit count : Nat) (hfirst : firstBit ≤ lastBit) (hlast : lastBit < type.width)
    (hcount : count ≤ type.width) :
    (FieldExtracted value firstBit lastBit ↔
      ¬(32 ≤ type.width ∧ firstBit = 0 ∧ lastBit + 1 = type.width)) ∧
    (OnesMasked type.width count ↔ ¬(32 ≤ type.width ∧ count = type.width)) := by
  refine ⟨?_, onesMasked_iff type hcount⟩
  rw [fieldExtracted_iff_onesMasked type value hfirst hlast, onesMasked_iff type (by omega)]
  omega

/-- Four bits of a byte, and all eight of them. -/
theorem field_extraction_iff_byte : FieldExtracted 0b10110101#8 2 5 ∧ OnesMasked 8 8 := by
  have hextraction := field_extraction_iff .uint8 0b10110101#8 2 5 8 (by decide) (by decide)
    (by decide)
  exact ⟨hextraction.1.mpr (by decide), hextraction.2.mpr (by decide)⟩

/-- All the bits of a word: the mask shifts a `uint32_t` by 32. -/
theorem not_fieldExtracted_word :
    ¬∀ type : UnsignedType,
      (∀ (value : BitVec type.width) (firstBit lastBit : Nat), firstBit ≤ lastBit →
        lastBit < type.width → FieldExtracted value firstBit lastBit) ∧
      ∀ count, count ≤ type.width → OnesMasked type.width count := by
  intro h
  obtain ⟨field, hfield, -⟩ := (h .uint32).1 0#32 0 31 (by decide) (by decide)
  have hundefined : Checked.getBits 0#32 0 31 = .error .undefinedBehaviour :=
    Checked.getBits_undefined 0#32 (by decide) (by decide)
  cases hundefined.symm.trans hfield

/-- What sign extension at a sign bit gives. -/
structure SignExtended {w : Nat} (value : BitVec w) (signBit : Nat) (extended : BitVec w) :
    Prop where
  residue : SignedResidue signBit value.toNat extended.toInt
  unique : ∀ z, SignedResidue signBit value.toNat z → z = extended.toInt
  ignoresUpper : ∀ other : BitVec w, (∀ i, i ≤ signBit → other.getLsbD i = value.getLsbD i) →
    Checked.signExtend other signBit = .ok extended
  again : Checked.signExtend extended signBit = .ok extended

section SignExtension
variable (type : UnsignedType) (value : BitVec type.width) {signBit : Nat}

theorem toInt_signExtend (hsign : signBit < type.width) :
    (signExtend value signBit).toInt = (value.setWidth (signBit + 1)).toInt := by
  rw [signExtend_eq value signBit hsign, BitVec.toInt_signExtend_of_le hsign]

/-- The bits above the sign bit do not count. -/
theorem signExtend_congr {other : BitVec type.width} (hsign : signBit < type.width)
    (hsame : ∀ i, i ≤ signBit → other.getLsbD i = value.getLsbD i) :
    signExtend other signBit = signExtend value signBit := by
  have hcut : other.setWidth (signBit + 1) = value.setWidth (signBit + 1) := by
    apply BitVec.eq_of_getLsbD_eq
    intro i hi
    rw [BitVec.getLsbD_setWidth, BitVec.getLsbD_setWidth, hsame i (by omega)]
  rw [signExtend_eq other signBit hsign, signExtend_eq value signBit hsign, hcut]

theorem signExtend_checked (hsign : signBit < type.width) :
    Checked.signExtend value signBit = .ok (signExtend value signBit) := by
  apply Checked.signExtend_ok value hsign
  cases type <;> decide

end SignExtension

/-- Sign extension is defined at every bit of every type. It gives the one signed residue of
the bits up to the sign bit, whatever the others are, and gives it again. -/
theorem sign_extended (type : UnsignedType) (value : BitVec type.width) (signBit : Nat)
    (hsign : signBit < type.width) :
    ∃ extended, Checked.signExtend value signBit = .ok extended ∧
      SignExtended value signBit extended := by
  have hresidue : SignedResidue signBit value.toNat (signExtend value signBit).toInt := by
    rw [toInt_signExtend type value hsign]
    exact SignedResidue.toInt_setWidth value
  refine ⟨signExtend value signBit, signExtend_checked type value hsign, hresidue,
    fun z => hresidue.unique, ?_, ?_⟩
  · intro other hsame
    rw [signExtend_checked type other hsign, signExtend_congr type value hsign hsame]
  · have hkept : ∀ i, i ≤ signBit → (signExtend value signBit).getLsbD i = value.getLsbD i := by
      intro i hi
      rw [getLsbD_signExtend value signBit i hsign (by omega), if_pos hi]
    rw [signExtend_checked type _ hsign, signExtend_congr type value hsign hkept]

/-- Five bits of a byte, the last of them set. -/
theorem sign_extended_byte :
    ∃ extended, Checked.signExtend 0b00010101#8 4 = .ok extended ∧
      SignExtended 0b00010101#8 4 extended :=
  sign_extended .uint8 0b00010101#8 4 (by decide)

end RiscvEmulator.Guarantees
