import RiscvEmulator.Library.LittleEndian
import RiscvEmulator.Source.Base

/-!
# Unaligned little-endian memory access

Embeds the loads and the stores of src/riscv/utils/memory.hpp. A pointer is the list of
the bytes from it to the end of its buffer, so an access past the buffer is an access to
a list that is too short; a store returns the bytes from its pointer on as it leaves
them. On a little-endian host the source copies the object representation; on any other
host it assembles the value, or takes it apart, by shifts in the promoted type.
-/
namespace RiscvEmulator.Source
open Library.LittleEndian

inductive Endian where
  | little | big
  deriving DecidableEq, Repr

def valueU16 (native : Endian) (b0 b1 : Byte) : BitVec 16 :=
  match native with
  | .little => b1 ++ b0
  | .big => (b0.setWidth 32 ||| (b1.setWidth 32 <<< 0o10)).setWidth 16

def valueU32 (native : Endian) (b0 b1 b2 b3 : Byte) : BitVec 32 :=
  match native with
  | .little => b3 ++ b2 ++ b1 ++ b0
  | .big =>
    b0.setWidth 32 ||| (b1.setWidth 32 <<< 0o10) ||| (b2.setWidth 32 <<< 0o20) |||
      (b3.setWidth 32 <<< 0o30)

def valueU64 (native : Endian) (b0 b1 b2 b3 b4 b5 b6 b7 : Byte) : BitVec 64 :=
  match native with
  | .little => b7 ++ b6 ++ b5 ++ b4 ++ b3 ++ b2 ++ b1 ++ b0
  | .big =>
    b0.setWidth 64 ||| (b1.setWidth 64 <<< 0o10) ||| (b2.setWidth 64 <<< 0o20) |||
      (b3.setWidth 64 <<< 0o30) ||| (b4.setWidth 64 <<< 0o40) ||| (b5.setWidth 64 <<< 0o50) |||
      (b6.setWidth 64 <<< 0o60) ||| (b7.setWidth 64 <<< 0o70)

def loadU16 (native : Endian) (ptr : List Byte) : Except Abort (BitVec 16) :=
  match ptr with
  | b0 :: b1 :: _ => .ok (valueU16 native b0 b1)
  | _ => .error .undefinedBehaviour

def loadU32 (native : Endian) (ptr : List Byte) : Except Abort (BitVec 32) :=
  match ptr with
  | b0 :: b1 :: b2 :: b3 :: _ => .ok (valueU32 native b0 b1 b2 b3)
  | _ => .error .undefinedBehaviour

def loadU64 (native : Endian) (ptr : List Byte) : Except Abort (BitVec 64) :=
  match ptr with
  | b0 :: b1 :: b2 :: b3 :: b4 :: b5 :: b6 :: b7 :: _ =>
    .ok (valueU64 native b0 b1 b2 b3 b4 b5 b6 b7)
  | _ => .error .undefinedBehaviour

def bytesU16 (native : Endian) (value : BitVec 16) : List Byte :=
  match native with
  | .little => [value.extractLsb' 0 8, value.extractLsb' 8 8]
  | .big => [value.setWidth 8, (value.setWidth 32 >>> 0o10).setWidth 8]

def bytesU32 (native : Endian) (value : BitVec 32) : List Byte :=
  match native with
  | .little =>
    [value.extractLsb' 0 8, value.extractLsb' 8 8, value.extractLsb' 16 8, value.extractLsb' 24 8]
  | .big =>
    [value.setWidth 8, (value >>> 0o10).setWidth 8, (value >>> 0o20).setWidth 8,
      (value >>> 0o30).setWidth 8]

def bytesU64 (native : Endian) (value : BitVec 64) : List Byte :=
  match native with
  | .little =>
    [value.extractLsb' 0 8, value.extractLsb' 8 8, value.extractLsb' 16 8, value.extractLsb' 24 8,
      value.extractLsb' 32 8, value.extractLsb' 40 8, value.extractLsb' 48 8,
      value.extractLsb' 56 8]
  | .big =>
    [value.setWidth 8, (value >>> 0o10).setWidth 8, (value >>> 0o20).setWidth 8,
      (value >>> 0o30).setWidth 8, (value >>> 0o40).setWidth 8, (value >>> 0o50).setWidth 8,
      (value >>> 0o60).setWidth 8, (value >>> 0o70).setWidth 8]

def storeU16 (native : Endian) (ptr : List Byte) (value : BitVec 16) : Except Abort (List Byte) :=
  match ptr with
  | _ :: _ :: rest => .ok (bytesU16 native value ++ rest)
  | _ => .error .undefinedBehaviour

def storeU32 (native : Endian) (ptr : List Byte) (value : BitVec 32) : Except Abort (List Byte) :=
  match ptr with
  | _ :: _ :: _ :: _ :: rest => .ok (bytesU32 native value ++ rest)
  | _ => .error .undefinedBehaviour

def storeU64 (native : Endian) (ptr : List Byte) (value : BitVec 64) : Except Abort (List Byte) :=
  match ptr with
  | _ :: _ :: _ :: _ :: _ :: _ :: _ :: _ :: rest => .ok (bytesU64 native value ++ rest)
  | _ => .error .undefinedBehaviour

/-- Bytes below others, as the shifts of the other branch put them together. -/
theorem setWidth_append_byte {n : Nat} (w : Nat) (high : BitVec n) (low : Byte) :
    (high ++ low).setWidth w = low.setWidth w ||| (high.setWidth w <<< 8) := by
  apply BitVec.eq_of_getLsbD_eq
  intro i hi
  simp only [BitVec.getLsbD_setWidth, BitVec.getLsbD_append, BitVec.getLsbD_or,
    BitVec.getLsbD_shiftLeft, hi, decide_true, Bool.true_and]
  by_cases hlow : i < 8
  · simp [hlow]
  · have hlt : i - 8 < w := by omega
    have hbeyond : low.getLsbD i = false := BitVec.getLsbD_of_ge low i (by omega)
    simp [hlow, hlt, hbeyond]

/-- The two branches of a load agree, so the host's byte order is not observable. -/
theorem valueU16_native (native : Endian) (b0 b1 : Byte) :
    valueU16 native b0 b1 = valueU16 .little b0 b1 := by
  cases native with
  | little => rfl
  | big =>
    simp only [valueU16]
    rw [← setWidth_append_byte, BitVec.setWidth_setWidth_of_le _ (by omega)]
    exact BitVec.setWidth_eq _

theorem valueU32_native (native : Endian) (b0 b1 b2 b3 : Byte) :
    valueU32 native b0 b1 b2 b3 = valueU32 .little b0 b1 b2 b3 := by
  cases native with
  | little => rfl
  | big =>
    have hwhole : valueU32 .little b0 b1 b2 b3 = (b3 ++ b2 ++ b1 ++ b0).setWidth 32 :=
      (BitVec.setWidth_eq _).symm
    rw [hwhole]
    simp only [valueU32, setWidth_append_byte, BitVec.shiftLeft_or_distrib, ← BitVec.shiftLeft_add,
      BitVec.or_assoc, Nat.reduceAdd]

theorem valueU64_native (native : Endian) (b0 b1 b2 b3 b4 b5 b6 b7 : Byte) :
    valueU64 native b0 b1 b2 b3 b4 b5 b6 b7 = valueU64 .little b0 b1 b2 b3 b4 b5 b6 b7 := by
  cases native with
  | little => rfl
  | big =>
    have hwhole : valueU64 .little b0 b1 b2 b3 b4 b5 b6 b7 =
        (b7 ++ b6 ++ b5 ++ b4 ++ b3 ++ b2 ++ b1 ++ b0).setWidth 64 := (BitVec.setWidth_eq _).symm
    rw [hwhole]
    simp only [valueU64, setWidth_append_byte, BitVec.shiftLeft_or_distrib, ← BitVec.shiftLeft_add,
      BitVec.or_assoc, Nat.reduceAdd]

/-- The two branches of a store agree as well. -/
theorem bytesU16_native (native : Endian) (value : BitVec 16) :
    bytesU16 native value = bytesU16 .little value := by
  cases native with
  | little => rfl
  | big =>
    have hlow : value.setWidth 8 = value.extractLsb' 0 8 :=
      BitVec.setWidth_eq_extractLsb' (by omega)
    have hhigh : (value.setWidth 32).extractLsb' 8 8 = value.extractLsb' 8 8 := by
      apply BitVec.eq_of_getLsbD_eq
      intro i hi
      simp [hi, show 8 + i < 32 by omega]
    simp only [bytesU16, BitVec.setWidth_ushiftRight_eq_extractLsb, hlow, hhigh]

theorem bytesU32_native (native : Endian) (value : BitVec 32) :
    bytesU32 native value = bytesU32 .little value := by
  cases native with
  | little => rfl
  | big =>
    have hlow : value.setWidth 8 = value.extractLsb' 0 8 :=
      BitVec.setWidth_eq_extractLsb' (by omega)
    simp only [bytesU32, BitVec.setWidth_ushiftRight_eq_extractLsb, hlow]

theorem bytesU64_native (native : Endian) (value : BitVec 64) :
    bytesU64 native value = bytesU64 .little value := by
  cases native with
  | little => rfl
  | big =>
    have hlow : value.setWidth 8 = value.extractLsb' 0 8 :=
      BitVec.setWidth_eq_extractLsb' (by omega)
    simp only [bytesU64, BitVec.setWidth_ushiftRight_eq_extractLsb, hlow]

section Accesses
variable {native : Endian}

/-! Where the bytes are there, a load gives the number they make and a store puts the bytes
of its value in their place. -/

theorem loadU16_number : ∀ {ptr : List Byte}, 2 ≤ ptr.length →
    ∃ value, loadU16 native ptr = .ok value ∧ value.toNat = number (ptr.take 2)
  | b0 :: b1 :: _, _ =>
    ⟨valueU16 native b0 b1, rfl, by rw [valueU16_native]; simp [valueU16, toNat_append_byte]⟩

theorem loadU32_number : ∀ {ptr : List Byte}, 4 ≤ ptr.length →
    ∃ value, loadU32 native ptr = .ok value ∧ value.toNat = number (ptr.take 4)
  | b0 :: b1 :: b2 :: b3 :: _, _ =>
    ⟨valueU32 native b0 b1 b2 b3, rfl, by
      rw [valueU32_native]; simp [valueU32, toNat_append_byte]⟩

theorem loadU64_number : ∀ {ptr : List Byte}, 8 ≤ ptr.length →
    ∃ value, loadU64 native ptr = .ok value ∧ value.toNat = number (ptr.take 8)
  | b0 :: b1 :: b2 :: b3 :: b4 :: b5 :: b6 :: b7 :: _, _ =>
    ⟨valueU64 native b0 b1 b2 b3 b4 b5 b6 b7, rfl, by
      rw [valueU64_native]; simp [valueU64, toNat_append_byte]⟩

theorem storeU16_bytes (value : BitVec 16) : ∀ {ptr : List Byte}, 2 ≤ ptr.length →
    storeU16 native ptr value = .ok (byteSlice value 0 2 ++ ptr.drop 2)
  | _ :: _ :: _, _ => by rw [storeU16, bytesU16_native]; rfl

theorem storeU32_bytes (value : BitVec 32) : ∀ {ptr : List Byte}, 4 ≤ ptr.length →
    storeU32 native ptr value = .ok (byteSlice value 0 4 ++ ptr.drop 4)
  | _ :: _ :: _ :: _ :: _, _ => by rw [storeU32, bytesU32_native]; rfl

theorem storeU64_bytes (value : BitVec 64) : ∀ {ptr : List Byte}, 8 ≤ ptr.length →
    storeU64 native ptr value = .ok (byteSlice value 0 8 ++ ptr.drop 8)
  | _ :: _ :: _ :: _ :: _ :: _ :: _ :: _ :: _, _ => by rw [storeU64, bytesU64_native]; rfl

end Accesses
end RiscvEmulator.Source
