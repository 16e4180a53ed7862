import RiscvEmulator.Guarantees.DecoderPrograms
import RiscvEmulator.Guarantees.ElfOrder

/-!
# What a load does not depend on

The byte order of the host, on every file: both branches of every unaligned load are
taken to the same end, be it an object that is thrown or undefined behaviour. And, on a
file that is loaded, the bytes after its end: the loader compares with the size of the
file only to reject.
-/
namespace RiscvEmulator.Guarantees
open Source Spec Library.ByteBuffer Library.ExceptList

variable {native : Endian} {source : List Byte} {elfHeader : ElfHeader}

section Host

theorem loadU16_native (native : Endian) (ptr : List Byte) :
    loadU16 native ptr = loadU16 .little ptr := by
  unfold loadU16
  split
  · rw [valueU16_native]
  · rfl

theorem loadU32_native (native : Endian) (ptr : List Byte) :
    loadU32 native ptr = loadU32 .little ptr := by
  unfold loadU32
  split
  · rw [valueU32_native]
  · rfl

theorem loadU64_native (native : Endian) (ptr : List Byte) :
    loadU64 native ptr = loadU64 .little ptr := by
  unfold loadU64
  split
  · rw [valueU64_native]
  · rfl

theorem readElfHeader_native (native : Endian) (source : List Byte) :
    ElfHeader.read native source = ElfHeader.read .little source := by
  unfold ElfHeader.read
  simp only [loadU16_native native, loadU32_native native, loadU64_native native]

theorem readSegmentHeader_native (native : Endian) (source : List Byte) (offset : BitVec 64) :
    SegmentHeader.read native source offset = SegmentHeader.read .little source offset := by
  unfold SegmentHeader.read
  simp only [loadU32_native native, loadU64_native native]

theorem readSegmentHeadersLoop_native (native : Endian) {remaining i : Nat}
    {data code : List SegmentHeader} :
    readSegmentHeadersLoop native elfHeader source remaining i data code =
      readSegmentHeadersLoop .little elfHeader source remaining i data code := by
  induction remaining generalizing i data code with
  | zero => rfl
  | succ remaining ih =>
    unfold readSegmentHeadersLoop
    simp only [readSegmentHeader_native native, ih]

theorem decodeInstructions_native (native : Endian) (program : List Byte) :
    decodeInstructions native program = decodeInstructions .little program := by
  unfold decodeInstructions
  simp only [decodeLoop_eq]

theorem readHeaders_native (std : StdSort SegmentHeader.less) (native : Endian)
    (source : List Byte) : readHeaders std native source = readHeaders std .little source := by
  unfold readHeaders readSegmentHeaders
  simp only [readElfHeader_native native, readSegmentHeadersLoop_native native]

theorem mapCodeSegments_native {Handler : Type} (native : Endian) (headers : List SegmentHeader)
    (source : List Byte) (emulator : Emulator Handler) :
    mapCodeSegments native headers source emulator =
      mapCodeSegments .little headers source emulator := by
  unfold mapCodeSegments
  simp only [decodeInstructions_native native]

end Host

/-- A load ends the same way and leaves the same emulator on every host. -/
theorem loadElf_native {Handler : Type} (std : StdSort SegmentHeader.less)
    (native native' : Endian) (source : List Byte) (emulator : Emulator Handler) :
    loadElf std native source emulator = loadElf std native' source emulator := by
  unfold loadElf
  simp only [readHeaders_native std native, readHeaders_native std native',
    mapCodeSegments_native native, mapCodeSegments_native native']

section Trailing
variable {rest : List Byte}

theorem dereference_more : ∀ {ptr : List Byte} {value : Byte}, dereference ptr = .ok value →
    ∀ rest, dereference (ptr ++ rest) = .ok value
  | _ :: _, _, h, _ => h

theorem loadU16_more {ptr : List Byte} {value : BitVec 16} (h : loadU16 native ptr = .ok value)
    (rest : List Byte) : loadU16 native (ptr ++ rest) = .ok value := by
  unfold loadU16 at h
  split at h
  · exact h
  · cases h

theorem loadU32_more {ptr : List Byte} {value : BitVec 32} (h : loadU32 native ptr = .ok value)
    (rest : List Byte) : loadU32 native (ptr ++ rest) = .ok value := by
  unfold loadU32 at h
  split at h
  · exact h
  · cases h

theorem loadU64_more {ptr : List Byte} {value : BitVec 64} (h : loadU64 native ptr = .ok value)
    (rest : List Byte) : loadU64 native (ptr ++ rest) = .ok value := by
  unfold loadU64 at h
  split at h
  · exact h
  · cases h

theorem validate_more (h : elfHeader.validate source = .ok ()) (rest : List Byte) :
    elfHeader.validate (source ++ rest) = .ok () := by
  unfold ElfHeader.validate at h ⊢
  split at h
  · cases h
  next hfields =>
  split at h
  · cases h
  next hentry =>
  split at h
  · cases h
  next hbounds =>
  rw [if_neg hfields, if_neg hentry, if_neg]
  rw [List.length_append]
  omega

theorem readElfHeader_more (h : ElfHeader.read native source = .ok elfHeader) (rest : List Byte) :
    ElfHeader.read native (source ++ rest) = .ok elfHeader := by
  unfold ElfHeader.read at h ⊢
  split at h
  · cases h
  next hsize =>
  have hsize' : ¬(source ++ rest).length < ElfHeader.elfHeaderSize := by
    rw [List.length_append]
    omega
  obtain ⟨magic, hmagic, h⟩ := bind_ok h
  obtain ⟨elfClass, hclass, h⟩ := bind_ok h
  obtain ⟨data, hdata, h⟩ := bind_ok h
  obtain ⟨version, hversion, h⟩ := bind_ok h
  obtain ⟨osABI, habi, h⟩ := bind_ok h
  obtain ⟨type, htype, h⟩ := bind_ok h
  obtain ⟨machine, hmachine, h⟩ := bind_ok h
  obtain ⟨entry, hentry, h⟩ := bind_ok h
  obtain ⟨programHeaderOffset, hoffset, h⟩ := bind_ok h
  obtain ⟨programHeaderEntrySize, hentrySize, h⟩ := bind_ok h
  obtain ⟨programHeaderEntryCount, hcount, h⟩ := bind_ok h
  obtain ⟨⟨⟩, hvalid, h⟩ := bind_ok h
  rw [if_neg hsize']
  simp only [List.drop_append, loadU32_more hmagic, dereference_more hclass, dereference_more hdata,
    dereference_more hversion, dereference_more habi, loadU16_more htype, loadU16_more hmachine,
    loadU64_more hentry, loadU64_more hoffset, loadU16_more hentrySize, loadU16_more hcount,
    ok_bind, validate_more hvalid]
  exact h

theorem readSegmentHeader_more {offset : BitVec 64} {header : SegmentHeader}
    (h : SegmentHeader.read native source offset = .ok header) (rest : List Byte) :
    SegmentHeader.read native (source ++ rest) offset = .ok header := by
  unfold SegmentHeader.read at h ⊢
  obtain ⟨type, htype, h⟩ := bind_ok h
  obtain ⟨flags, hflags, h⟩ := bind_ok h
  obtain ⟨sourceStart, hsource, h⟩ := bind_ok h
  obtain ⟨destinationStart, hdestination, h⟩ := bind_ok h
  obtain ⟨sourceSize, hfile, h⟩ := bind_ok h
  obtain ⟨destinationSize, hmemory, h⟩ := bind_ok h
  simp only [List.drop_append, loadU32_more htype, loadU32_more hflags, loadU64_more hsource,
    loadU64_more hdestination, loadU64_more hfile, loadU64_more hmemory, ok_bind]
  exact h

/-- The entries that are read from the file are read from the longer file. -/
theorem readSegmentHeadersLoop_more {remaining i : Nat}
    {data code : List SegmentHeader} {kept : List SegmentHeader × List SegmentHeader}
    (h : readSegmentHeadersLoop native elfHeader source remaining i data code = .ok kept)
    (rest : List Byte) :
    readSegmentHeadersLoop native elfHeader (source ++ rest) remaining i data code = .ok kept := by
  induction remaining generalizing i data code with
  | zero => exact h
  | succ remaining ih =>
    unfold readSegmentHeadersLoop at h ⊢
    obtain ⟨header, hread, h⟩ := bind_ok h
    rw [readSegmentHeader_more hread rest, ok_bind]
    split at h
    · next htype =>
      rw [if_pos htype]
      exact ih h
    next htype =>
    split at h
    · next hempty =>
      rw [if_neg htype, if_pos hempty]
      exact ih h
    next hempty =>
    split at h
    · cases h
    next hend =>
    have hend' : ¬header.sourceEnd.toNat > (source ++ rest).length := by
      rw [List.length_append]
      omega
    rw [if_neg htype, if_neg hempty, if_neg hend']
    split at h
    · next hexec =>
      rw [if_pos hexec]
      exact ih h
    · next hexec =>
      rw [if_neg hexec]
      exact ih h

theorem readHeaders_more {std : StdSort SegmentHeader.less} {data code : List SegmentHeader}
    (h : readHeaders std native source = .ok (data, code)) (rest : List Byte) :
    readHeaders std native (source ++ rest) = .ok (data, code) := by
  obtain ⟨elfHeader, data₀, code₀, helf, hsegments, rfl, rfl, hvalidData, hvalidCode⟩ :=
    readHeaders_cases h
  unfold readHeaders readSegmentHeaders
  rw [readElfHeader_more helf rest, ok_bind, readSegmentHeadersLoop_more hsegments rest, ok_bind]
  dsimp only
  rw [hvalidData, ok_bind, hvalidCode, ok_bind]
  rfl

theorem readAt_more {start size : Nat} (hfit : start + size ≤ source.length) (rest : List Byte) :
    readAt (source ++ rest) start size = readAt source start size := by
  have hfit' : start + size ≤ (source ++ rest).length := by
    rw [List.length_append]
    omega
  rw [readAt_of_le hfit, readAt_of_le hfit', List.drop_append_of_le_length (by omega),
    List.take_append_of_le_length (by rw [List.length_drop]; omega)]

end Trailing

/-- Bytes after the end of a file that is loaded do not matter. -/
theorem loadElf_append {Handler : Type} {std : StdSort SegmentHeader.less} {native : Endian}
    {source : List Byte} {emulator loaded : Emulator Handler}
    (h : loadElf std native source emulator = (.ok (), loaded)) (rest : List Byte) :
    loadElf std native (source ++ rest) emulator = (.ok (), loaded) := by
  obtain ⟨data, code, mapped, hheaders, hdata, hcode⟩ := loadElf_ok h
  have hdataBounds : ∀ header ∈ data,
      header.sourceStart.toNat + header.sourceSize.toNat ≤ source.length := by
    rcases mapDataSegments_cases hdata with ⟨rfl, -⟩ |
      ⟨last, origin, allocated, filled, -, -, -, hcopy, -⟩
    · simp
    · exact (copySegments_ok hcopy).2
  obtain ⟨buffer, instructions, hcopy, -, -⟩ := mapCodeSegments_ok hcode
  have hcodeBounds := (copySegments_ok hcopy).2
  unfold loadElf
  rw [readHeaders_more hheaders rest]
  dsimp only
  rw [mapDataSegments_congr (fun header hmem => readAt_more (hdataBounds header hmem) rest), hdata]
  dsimp only
  rw [mapCodeSegments_congr (fun header hmem => readAt_more (hcodeBounds header hmem) rest), hcode]

theorem loadElf_append_padded :
    loadElf insertionSort .little (paddedFile ++ [0xcc, 0xcc])
        (Emulator.new 4096 8 : Emulator Unit) =
      (.ok (), (loadElf insertionSort .little paddedFile (Emulator.new 4096 8)).2) := by
  have hload : loadElf insertionSort .little paddedFile (Emulator.new 4096 8 : Emulator Unit) =
      (.ok (), (loadElf insertionSort .little paddedFile (Emulator.new 4096 8)).2) := by
    rw [← loadElf_paddedFile]
  exact loadElf_append hload [0xcc, 0xcc]

end RiscvEmulator.Guarantees
