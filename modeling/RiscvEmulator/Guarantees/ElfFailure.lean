import RiscvEmulator.Guarantees.ElfImage
import RiscvEmulator.Guarantees.ElfThrows

/-!
# What a failed load leaves behind

The loader reads, sorts and validates all headers before it touches the emulator, and
sets the instructions last. In between it maps the data segments, and a load that then
rejects the code segments leaves them in the arena.
-/
namespace RiscvEmulator.Guarantees
open Source Spec Library.ByteBuffer Library.ExceptList

variable {Handler : Type} {native : Endian} {source : List Byte}

/-- Place `i` is in the array of `totalSize headers` bytes at `origin`, or a segment's bytes
are copied to it. The copies stay inside the array unless the end of a segment wraps. -/
def InDataMemory (origin : Nat) (headers : List SegmentHeader) (i : Nat) : Prop :=
  (origin ≤ i ∧ i < origin + totalSize headers) ∨
    ∃ header ∈ headers, origin + header.destinationStart.toNat ≤ i ∧
      i < origin + header.destinationStart.toNat + header.sourceSize.toNat

section Map
variable {headers : List SegmentHeader} {emulator mapped : Emulator Handler}

theorem copySegments_outside {origin : Nat} {buffer buffer' : List Byte}
    (h : copySegments source origin headers buffer = .ok buffer') {i : Nat}
    (hi : ¬InDataMemory origin headers i) : buffer'[i]? = buffer[i]? := by
  obtain ⟨hwrites, hbounds⟩ := copySegments_ok h
  apply getElem?_of_writeAll_outside hwrites
  intro write hmem
  obtain ⟨header, hheader, rfl⟩ := List.mem_map.mp hmem
  rw [length_fileBytes (hbounds header hheader)]
  by_contra hinside
  exact hi (.inr ⟨header, hheader, by omega, by omega⟩)

/-- Mapping the data segments writes to their memory and changes nothing else. -/
theorem mapDataSegments_frame (h : mapDataSegments headers source emulator = .ok mapped) :
    mapped.memory.freeSpace = emulator.memory.freeSpace ∧
      mapped.instructions = emulator.instructions ∧
      ∀ i, ¬InDataMemory emulator.memory.getFreeOffset headers i →
        mapped.memory.storage[i]? = emulator.memory.storage[i]? := by
  rcases mapDataSegments_cases h with ⟨-, rfl⟩ |
    ⟨last, origin, allocated, filled, hlast, hallocate, hspace, hcopy, rfl⟩
  · exact ⟨rfl, rfl, fun _ _ => rfl⟩
  obtain ⟨rfl, -, hkept, hallocated⟩ := allocateArray_byte hallocate
  have htotal := totalSize_eq hlast
  refine ⟨hspace.trans hkept, rfl, fun i hi => ?_⟩
  have houtside : ¬(emulator.memory.getFreeOffset ≤ i ∧
      i < emulator.memory.getFreeOffset + last.destinationEnd.toNat) := by
    rw [← htotal]
    exact fun hblock => hi (.inl hblock)
  show filled.storage[i]? = emulator.memory.storage[i]?
  rw [copySegments_outside hcopy hi, hallocated i, if_neg houtside]

end Map

/-- Where the load failed, with the emulator as that leaves it. -/
theorem loadElf_thrown_cases {std : StdSort SegmentHeader.less} {emulator after : Emulator Handler}
    {object : Thrown}
    (h : loadElf std native source emulator = (.error (.thrown object), after)) :
    after = emulator ∨ ∃ data code, readHeaders std native source = .ok (data, code) ∧
      data ≠ [] ∧ mapDataSegments data source emulator = .ok after ∧
      CodeRejected native source code object := by
  unfold loadElf at h
  split at h
  · exact .inl (Prod.mk.inj h).2.symm
  next data code hheaders =>
  split at h
  · exact .inl (Prod.mk.inj h).2.symm
  next mapped hdata =>
  split at h
  next e hcode =>
    obtain ⟨herror, rfl⟩ := Prod.mk.inj h
    rw [Except.error.inj herror] at hcode
    cases data with
    | nil => exact .inl (Except.ok.inj hdata).symm
    | cons header headers =>
      exact .inr ⟨header :: headers, code, hheaders, List.cons_ne_nil header headers, hdata,
        mapCodeSegments_thrown hcode⟩
  · cases h

/-- A load that throws keeps the free space and the instructions. It also keeps the raw
bytes, unless it rejects the code segments of a file with data segments: these have been
mapped by then, and the bytes outside their memory are kept. -/
theorem loadElf_thrown (std : StdSort SegmentHeader.less) (native : Endian) (source : List Byte)
    (emulator after : Emulator Handler) (object : Thrown)
    (h : loadElf std native source emulator = (.error (.thrown object), after)) :
    after.memory.getFreeSpace = emulator.memory.getFreeSpace ∧
      after.instructions = emulator.instructions ∧
      (after.memory.raw = emulator.memory.raw ∨
        ∃ data code, readHeaders std native source = .ok (data, code) ∧ data ≠ [] ∧
          mapDataSegments data source emulator = .ok after ∧
          CodeRejected native source code object ∧
          ∀ i, ¬InDataMemory emulator.memory.getFreeOffset data i →
            after.memory.raw[i]? = emulator.memory.raw[i]?) := by
  rcases loadElf_thrown_cases h with rfl | ⟨data, code, hheaders, hne, hdata, hcode⟩
  · exact ⟨rfl, rfl, .inl rfl⟩
  · obtain ⟨hspace, hinstructions, houtside⟩ := mapDataSegments_frame hdata
    exact ⟨hspace, hinstructions, .inr ⟨data, code, hheaders, hne, hdata, hcode, houtside⟩⟩

/-- Two bytes of data at 2, and a code segment whose word is 0. -/
def compressedFile : List Byte :=
  elfFile [codeSegment 176, paddedSegment] [0, 0, 0, 0, 0xaa, 0xbb]

def smallEmulator : Emulator Unit := Emulator.new 4096 8

/-- `smallEmulator` as the failed load leaves it. -/
def afterCompressed : Emulator Unit :=
  (loadElf insertionSort .little compressedFile smallEmulator).2

theorem loadElf_compressedFile :
    loadElf insertionSort .little compressedFile smallEmulator =
      (.error (.thrown (.value (.runtimeError "Compressed instructions are not supported"))),
        afterCompressed) := by
  have hthrown : (loadElf insertionSort .little compressedFile smallEmulator).1 =
      .error (.thrown (.value (.runtimeError "Compressed instructions are not supported"))) := by
    decide +kernel
  unfold afterCompressed
  rw [← hthrown]

theorem loadElf_thrown_compressed :
    afterCompressed.memory.getFreeSpace = smallEmulator.memory.getFreeSpace ∧
      afterCompressed.instructions = smallEmulator.instructions ∧
      (afterCompressed.memory.raw = smallEmulator.memory.raw ∨
        ∃ data code, readHeaders insertionSort .little compressedFile = .ok (data, code) ∧
          data ≠ [] ∧
          mapDataSegments data compressedFile smallEmulator = .ok afterCompressed ∧
          CodeRejected .little compressedFile code
            (.value (.runtimeError "Compressed instructions are not supported")) ∧
          ∀ i, ¬InDataMemory smallEmulator.memory.getFreeOffset data i →
            afterCompressed.memory.raw[i]? = smallEmulator.memory.raw[i]?) :=
  loadElf_thrown insertionSort .little compressedFile smallEmulator afterCompressed _
    loadElf_compressedFile

/-- The data segment's bytes are in the arena after the load has thrown. -/
theorem not_loadElf_thrown_untouched :
    ¬∀ (std : StdSort SegmentHeader.less) (native : Endian) (source : List Byte)
      (emulator after : Emulator Unit) (object : Thrown),
      loadElf std native source emulator = (.error (.thrown object), after) →
        after.memory.raw = emulator.memory.raw ∧
          after.memory.getFreeSpace = emulator.memory.getFreeSpace ∧
          after.instructions = emulator.instructions := by
  intro h
  have hraw := (h _ _ _ _ _ _ loadElf_compressedFile).1
  have hmapped : afterCompressed.memory.raw = [0, 0, 0xaa, 0xbb, 0, 0, 0, 0] := by decide +kernel
  rw [hmapped] at hraw
  exact absurd hraw (by decide)

end RiscvEmulator.Guarantees
