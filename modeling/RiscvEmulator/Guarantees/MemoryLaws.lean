import RiscvEmulator.Library.ByteBuffer
import RiscvEmulator.Source.Memory

/-!
# The laws of the unaligned accesses

Inside a buffer every load reads the little-endian number of its bytes and every store
writes the bytes of its value, whichever branch the host compiles. The laws of loads after
stores are then the laws of slices of a buffer.
-/
namespace RiscvEmulator.Guarantees
open Source Library.ByteBuffer Library.LittleEndian

inductive Width where
  | u16 | u32 | u64
  deriving DecidableEq, Repr

@[simp] def Width.bytes : Width → Nat
  | .u16 => 2
  | .u32 => 4
  | .u64 => 8

/-- The values of a width. -/
abbrev Width.Value (width : Width) : Type := BitVec (8 * width.bytes)

/-- loadN through a pointer to offset `start` of the buffer. -/
def load (native : Endian) (width : Width) (buffer : List Byte) (start : Nat) :
    Except Abort width.Value :=
  match width with
  | .u16 => loadU16 native (buffer.drop start)
  | .u32 => loadU32 native (buffer.drop start)
  | .u64 => loadU64 native (buffer.drop start)

/-- storeN through a pointer to offset `start`: the whole buffer as it leaves it. -/
def store (native : Endian) (width : Width) (buffer : List Byte) (start : Nat) :
    width.Value → Except Abort (List Byte) :=
  match width with
  | .u16 => fun value => (storeU16 native (buffer.drop start) value).map (buffer.take start ++ ·)
  | .u32 => fun value => (storeU32 native (buffer.drop start) value).map (buffer.take start ++ ·)
  | .u64 => fun value => (storeU64 native (buffer.drop start) value).map (buffer.take start ++ ·)

section Accesses
variable {native : Endian} {width : Width} {buffer : List Byte} {start : Nat}

theorem load_number (hfit : start + width.bytes ≤ buffer.length) :
    ∃ value, load native width buffer start = .ok value ∧
      value.toNat = number ((buffer.drop start).take width.bytes) := by
  have hroom : width.bytes ≤ (buffer.drop start).length := by
    rw [List.length_drop]
    omega
  cases width with
  | u16 => exact loadU16_number hroom
  | u32 => exact loadU32_number hroom
  | u64 => exact loadU64_number hroom

theorem store_writeAt (value : width.Value) (hfit : start + width.bytes ≤ buffer.length) :
    ∃ buffer', store native width buffer start value = .ok buffer' ∧
      writeAt buffer start (byteSlice value 0 width.bytes) = some buffer' := by
  have hroom : width.bytes ≤ (buffer.drop start).length := by
    rw [List.length_drop]
    omega
  have hwrite : writeAt buffer start (byteSlice value 0 width.bytes) =
      some (buffer.take start ++ (byteSlice value 0 width.bytes ++
        (buffer.drop start).drop width.bytes)) := by
    rw [writeAt, if_pos (by rw [length_byteSlice]; exact hfit), length_byteSlice,
      List.drop_drop, List.append_assoc]
  refine ⟨_, ?_, hwrite⟩
  cases width with
  | u16 => simp only [store, storeU16_bytes value hroom, Except.map, Width.bytes]
  | u32 => simp only [store, storeU32_bytes value hroom, Except.map, Width.bytes]
  | u64 => simp only [store, storeU64_bytes value hroom, Except.map, Width.bytes]

/-- A load sees the bytes of its range and nothing else. -/
theorem load_eq_of_slice {native' : Endian} {buffer' : List Byte} {start' : Nat}
    (hfit : start + width.bytes ≤ buffer.length) (hfit' : start' + width.bytes ≤ buffer'.length)
    (hsame : (buffer.drop start).take width.bytes = (buffer'.drop start').take width.bytes) :
    load native width buffer start = load native' width buffer' start' := by
  obtain ⟨value, hload, hvalue⟩ := @load_number native width buffer start hfit
  obtain ⟨value', hload', hvalue'⟩ := @load_number native' width buffer' start' hfit'
  have heq : value = value' := by
    apply BitVec.eq_of_toNat_eq
    rw [hvalue, hvalue', hsame]
  rw [hload, hload', heq]

end Accesses

/-- What holds once a store at `start` has turned `buffer` into `buffer'`. -/
structure StoreLaws (native : Endian) {width : Width} (value : width.Value) (start : Nat)
    (buffer buffer' : List Byte) : Prop where
  /-- The bytes stored are the little-endian bytes of the value. -/
  sum : number ((buffer'.drop start).take width.bytes) = value.toNat
  length : buffer'.length = buffer.length
  frame : ∀ i, i < start ∨ start + width.bytes ≤ i → buffer'[i]? = buffer[i]?
  readBack : load native width buffer' start = .ok value
  inside : ∀ (narrow : Width) (place : Nat), start ≤ place →
    place + narrow.bytes ≤ start + width.bytes →
    load native narrow buffer' place =
      .ok (value.extractLsb' (8 * (place - start)) (8 * narrow.bytes))
  apart : ∀ (other : Width) (place : Nat), place + other.bytes ≤ buffer.length →
    place + other.bytes ≤ start ∨ start + width.bytes ≤ place →
    load native other buffer' place = load native other buffer place

section Stored
variable {native : Endian} {width : Width} {value : width.Value} {start : Nat}
  {buffer buffer' : List Byte}

theorem load_inside (hwrite : writeAt buffer start (byteSlice value 0 width.bytes) = some buffer')
    (narrow : Width) {offset : Nat} (hinside : offset + narrow.bytes ≤ width.bytes) :
    load native narrow buffer' (start + offset) =
      .ok (value.extractLsb' (8 * offset) (8 * narrow.bytes)) := by
  have hroom := fits_of_writeAt hwrite
  rw [length_byteSlice] at hroom
  have hfit : start + offset + narrow.bytes ≤ buffer'.length := by
    rw [length_of_writeAt hwrite]
    omega
  obtain ⟨loaded, hload, hnumber⟩ := @load_number native narrow buffer' (start + offset) hfit
  have heq : loaded = value.extractLsb' (8 * offset) (8 * narrow.bytes) := by
    apply BitVec.eq_of_toNat_eq
    rw [hnumber, slice_of_writeAt hwrite (by rw [length_byteSlice]; exact hinside),
      drop_take_byteSlice value 0 hinside, Nat.zero_add, number_byteSlice_eq_extractLsb']
  rw [hload, heq]

theorem load_apart (hwrite : writeAt buffer start (byteSlice value 0 width.bytes) = some buffer')
    (other : Width) {place : Nat} (hfit : place + other.bytes ≤ buffer.length)
    (hapart : place + other.bytes ≤ start ∨ start + width.bytes ≤ place) :
    load native other buffer' place = load native other buffer place := by
  apply load_eq_of_slice
  · rw [length_of_writeAt hwrite]
    exact hfit
  · exact hfit
  · apply slice_of_writeAt_outside hwrite
    rw [length_byteSlice]
    exact hapart

theorem storeLaws_of_writeAt
    (hwrite : writeAt buffer start (byteSlice value 0 width.bytes) = some buffer') :
    StoreLaws native value start buffer buffer' where
  sum := by
    have hall : 0 + width.bytes ≤ (byteSlice value 0 width.bytes).length := by
      rw [length_byteSlice, Nat.zero_add]
    have hslice := slice_of_writeAt hwrite hall
    rw [Nat.add_zero, drop_take_byteSlice value 0 (Nat.le_of_eq (Nat.zero_add _))] at hslice
    rw [hslice, number_byteSlice_zero]
  length := length_of_writeAt hwrite
  frame i houtside := by
    apply getElem?_of_writeAt_outside hwrite
    rw [length_byteSlice]
    exact houtside
  readBack := by
    have hload : load native width buffer' (start + 0) =
        .ok (value.extractLsb' (8 * 0) (8 * width.bytes)) :=
      load_inside hwrite width (Nat.le_of_eq (Nat.zero_add width.bytes))
    rw [Nat.add_zero, Nat.mul_zero, BitVec.extractLsb'_eq_self] at hload
    exact hload
  inside narrow place hfrom hto := by
    have hload : load native narrow buffer' (start + (place - start)) =
        .ok (value.extractLsb' (8 * (place - start)) (8 * narrow.bytes)) :=
      load_inside hwrite narrow (by omega)
    rw [Nat.add_sub_cancel' hfrom] at hload
    exact hload
  apart other _ hfit hapart := load_apart hwrite other hfit hapart

end Stored

/-- On every host a load gives the sum of `buffer[start + i] * 256 ^ i` over its bytes, and a
store obeys the laws of memory. -/
theorem memory_laws (native : Endian) {width : Width} (value : width.Value) {buffer : List Byte}
    {start : Nat} (hfit : start + width.bytes ≤ buffer.length) :
    ∃ loaded buffer', load native width buffer start = .ok loaded ∧
      loaded.toNat = number ((buffer.drop start).take width.bytes) ∧
      store native width buffer start value = .ok buffer' ∧
      StoreLaws native value start buffer buffer' := by
  obtain ⟨loaded, hload, hnumber⟩ := @load_number native width buffer start hfit
  obtain ⟨buffer', hstore, hwrite⟩ := @store_writeAt native width buffer start value hfit
  exact ⟨loaded, buffer', hload, hnumber, hstore, storeLaws_of_writeAt hwrite⟩

theorem memory_laws_unaligned :
    ∃ loaded buffer', load .big .u32 [1, 2, 3, 4, 5, 6] 1 = .ok loaded ∧
      loaded.toNat = number [2, 3, 4, 5] ∧
      store .big .u32 [1, 2, 3, 4, 5, 6] 1 0x89abcdef#32 = .ok buffer' ∧
      @StoreLaws .big .u32 0x89abcdef#32 1 [1, 2, 3, 4, 5, 6] buffer' :=
  @memory_laws .big .u32 0x89abcdef#32 [1, 2, 3, 4, 5, 6] 1 (by decide)

end RiscvEmulator.Guarantees
