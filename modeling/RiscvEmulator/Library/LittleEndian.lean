import Mathlib.Data.Nat.Digits.Lemmas

/-!
# Little-endian numbers

`number` is the value of a byte string whose first byte weighs least. `byteSlice` is the
way back: some of the bytes of a value, lowest first. A slice of the bytes of a value is
the number made by the same slice of its bits.
-/
namespace RiscvEmulator.Library.LittleEndian

/-- The sum of `bytes[i] * 256 ^ i`. -/
def number (bytes : List (BitVec 8)) : Nat :=
  (bytes.mapIdx fun i byte => byte.toNat * 256 ^ i).sum

/-- The bytes `start`, …, `start + count - 1` of a value. -/
def byteSlice {w : Nat} (value : BitVec w) (start count : Nat) : List (BitVec 8) :=
  (List.range' start count).map fun i => value.extractLsb' (8 * i) 8

theorem number_eq_ofDigits (bytes : List (BitVec 8)) :
    number bytes = Nat.ofDigits 256 (bytes.map BitVec.toNat) := by
  rw [Nat.ofDigits_eq_sum_mapIdx, number]
  congr 1
  apply List.ext_getElem?
  intro i
  simp [Function.comp_def]

@[simp] theorem number_nil : number [] = 0 := rfl

@[simp] theorem number_cons (byte : BitVec 8) (bytes : List (BitVec 8)) :
    number (byte :: bytes) = byte.toNat + 256 * number bytes := by
  rw [number_eq_ofDigits, number_eq_ofDigits, List.map_cons, Nat.ofDigits_cons]

theorem toNat_append_byte {w : Nat} (high : BitVec w) (low : BitVec 8) :
    (high ++ low).toNat = low.toNat + 256 * high.toNat := by
  have hlow := low.isLt
  rw [BitVec.toNat_append, ← Nat.shiftLeft_add_eq_or_of_lt hlow, Nat.shiftLeft_eq]
  omega

section Slice
variable {w : Nat} (value : BitVec w)

@[simp] theorem length_byteSlice (start count : Nat) :
    (byteSlice value start count).length = count := by
  simp [byteSlice]

/-- A slice of a slice. -/
theorem drop_take_byteSlice (start : Nat) {total offset count : Nat}
    (h : offset + count ≤ total) :
    ((byteSlice value start total).drop offset).take count =
      byteSlice value (start + offset) count := by
  have hcount : total - offset ≥ count := by omega
  simp only [byteSlice, ← List.map_drop, ← List.map_take]
  rw [List.drop_range', List.take_range'_of_length_ge hcount, Nat.mul_one]

theorem number_byteSlice (start count : Nat) :
    number (byteSlice value start count) = value.toNat / 256 ^ start % 256 ^ count := by
  induction count generalizing start with
  | zero => simp [byteSlice, Nat.mod_one]
  | succ count ih =>
    have hcons : byteSlice value start (count + 1) =
        value.extractLsb' (8 * start) 8 :: byteSlice value (start + 1) count := by
      simp [byteSlice, List.range'_succ]
    have hfirst : (value.extractLsb' (8 * start) 8).toNat = value.toNat / 256 ^ start % 256 := by
      rw [BitVec.extractLsb'_toNat, Nat.shiftRight_eq_div_pow, Nat.pow_mul]
    rw [hcons, number_cons, hfirst, ih, Nat.pow_succ, Nat.pow_succ, ← Nat.div_div_eq_div_mul,
      Nat.mul_comm (256 ^ count), Nat.mod_mul]

theorem number_byteSlice_eq_extractLsb' (start count : Nat) :
    number (byteSlice value start count) =
      (value.extractLsb' (8 * start) (8 * count)).toNat := by
  rw [number_byteSlice, BitVec.extractLsb'_toNat, Nat.shiftRight_eq_div_pow, Nat.pow_mul,
    Nat.pow_mul]

end Slice

/-- All the bytes of a value make the value. -/
theorem number_byteSlice_zero {n : Nat} (value : BitVec (8 * n)) :
    number (byteSlice value 0 n) = value.toNat := by
  rw [number_byteSlice_eq_extractLsb', Nat.mul_zero, BitVec.extractLsb'_eq_self]

end RiscvEmulator.Library.LittleEndian
