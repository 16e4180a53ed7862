import RiscvEmulator.Guarantees.ElfRanges

/-!
# Reads of the file

The loader compares two ends with the size of the file, the end of the program header
table and the end of each segment, and computes both modulo `2 ^ 64`. An end that does
not wrap is checked as it should be, and everything before it is inside the file; one
that wraps looks small, and the reads it stands for are not.
-/
namespace RiscvEmulator.Guarantees
open Source Spec Library.ExceptList

variable {native : Endian} {source : List Byte} {elfHeader : ElfHeader}

section Table

theorem elfHeader_read_ok (h : ElfHeader.read native source = .ok elfHeader) :
    elfHeader.validate source = .ok () := by
  unfold ElfHeader.read at h
  split at h
  · cases h
  obtain ⟨magic, -, h⟩ := bind_ok h
  obtain ⟨elfClass, -, h⟩ := bind_ok h
  obtain ⟨data, -, h⟩ := bind_ok h
  obtain ⟨version, -, h⟩ := bind_ok h
  obtain ⟨osABI, -, h⟩ := bind_ok h
  obtain ⟨type, -, h⟩ := bind_ok h
  obtain ⟨machine, -, h⟩ := bind_ok h
  obtain ⟨entry, -, h⟩ := bind_ok h
  obtain ⟨programHeaderOffset, -, h⟩ := bind_ok h
  obtain ⟨programHeaderEntrySize, -, h⟩ := bind_ok h
  obtain ⟨programHeaderEntryCount, -, h⟩ := bind_ok h
  obtain ⟨⟨⟩, hvalid, h⟩ := bind_ok h
  obtain rfl := Except.ok.inj h
  exact hvalid

/-- What the header's check establishes: the end of the table, as the loader computes it. -/
theorem validate_ok (h : elfHeader.validate source = .ok ()) :
    elfHeader.programHeaderEntrySize = 56 ∧
      (elfHeader.programHeaderOffset + elfHeader.programHeaderEntryCount.setWidth 64 *
        elfHeader.programHeaderEntrySize.setWidth 64).toNat ≤ source.length := by
  unfold ElfHeader.validate at h
  split at h
  · cases h
  next hfields =>
  split at h
  · cases h
  split at h
  · cases h
  next hbounds =>
  exact ⟨(not_not.mp hfields).2.2.2.2.2.2.2, not_lt.mp hbounds⟩

theorem entryOffset_toNat (hsize : elfHeader.programHeaderEntrySize = 56) {i : Nat}
    (hwrap : elfHeader.programHeaderOffset.toNat + 56 * i < 2 ^ 64) :
    (entryOffset elfHeader i).toNat = elfHeader.programHeaderOffset.toNat + 56 * i := by
  unfold entryOffset
  rw [hsize]
  simp only [BitVec.toNat_add, BitVec.toNat_mul, BitVec.toNat_ofNat, BitVec.toNat_setWidth,
    BitVec.reduceToNat]
  omega

/-- The entries are inside the file, the offset of each being the one the loader computes. -/
def EntriesInside (source : List Byte) (elfHeader : ElfHeader) : Prop :=
  ∀ i, i < elfHeader.programHeaderEntryCount.toNat →
    (entryOffset elfHeader i).toNat + 56 ≤ source.length

theorem entriesInside_of_noWrap (h : elfHeader.validate source = .ok ())
    (hwrap : elfHeader.programHeaderOffset.toNat +
      56 * elfHeader.programHeaderEntryCount.toNat < 2 ^ 64) :
    EntriesInside source elfHeader := by
  obtain ⟨hsize, hbounds⟩ := validate_ok h
  intro i hi
  rw [hsize] at hbounds
  simp only [BitVec.toNat_add, BitVec.toNat_mul, BitVec.toNat_setWidth, BitVec.reduceToNat]
    at hbounds
  rw [entryOffset_toNat hsize (by omega)]
  omega

/-- While the entries are inside the file, no offset up to the end of the table wraps. -/
theorem noWrap_of_entriesInside (hsize : elfHeader.programHeaderEntrySize = 56)
    (hfile : source.length < 2 ^ 64) (hinside : EntriesInside source elfHeader) {i : Nat}
    (hi : i ≤ elfHeader.programHeaderEntryCount.toNat) :
    elfHeader.programHeaderOffset.toNat + 56 * i < 2 ^ 64 := by
  induction i with
  | zero => exact elfHeader.programHeaderOffset.isLt
  | succ i ih =>
    have hoffset := entryOffset_toNat hsize (ih (by omega))
    have hentry := hinside i (by omega)
    omega

end Table

/-- The entries of the program header table are inside the file exactly when the exact end
of the table does not exceed the 64-bit range. -/
theorem entriesInside_iff (native : Endian) (source : List Byte) (elfHeader : ElfHeader)
    (hread : ElfHeader.read native source = .ok elfHeader) (hfile : source.length < 2 ^ 64) :
    EntriesInside source elfHeader ↔ elfHeader.programHeaderOffset.toNat +
      56 * elfHeader.programHeaderEntryCount.toNat < 2 ^ 64 := by
  have hvalid := elfHeader_read_ok hread
  constructor
  · intro hinside
    exact noWrap_of_entriesInside (validate_ok hvalid).1 hfile hinside (Nat.le_refl _)
  · intro hwrap
    exact entriesInside_of_noWrap hvalid hwrap

/-- The ELF header of `elfFile headers body`. -/
def elfHeaderOf (count : BitVec 16) : ElfHeader where
  magic := 0x464c457f
  elfClass := 2
  data := 1
  version := 1
  type := 2
  machine := 243
  programHeaderOffset := 64
  programHeaderEntrySize := 56
  programHeaderEntryCount := count

/-- The header of a file with one entry, 56 bytes before the end of the offset range. -/
def wrappedTable : List Byte :=
  (elfHeaderBytes 1).take 32 ++ littleEndian 8 (2 ^ 64 - 56) ++ (elfHeaderBytes 1).drop 40

theorem entriesInside_iff_code :
    EntriesInside (elfFile [{}] []) (elfHeaderOf 1) ↔
      (elfHeaderOf 1).programHeaderOffset.toNat +
        56 * (elfHeaderOf 1).programHeaderEntryCount.toNat < 2 ^ 64 :=
  entriesInside_iff .little (elfFile [{}] []) (elfHeaderOf 1) (by decide +kernel) (by decide)

/-- The end of the table wraps to 0, and its one entry is 2^64 - 56 bytes into 64. -/
theorem not_entriesInside_wrapped :
    ¬∀ (native : Endian) (source : List Byte) (elfHeader : ElfHeader),
      ElfHeader.read native source = .ok elfHeader → EntriesInside source elfHeader := by
  intro h
  have hread : ElfHeader.read .little wrappedTable =
      .ok { elfHeaderOf 1 with programHeaderOffset := -56 } := by decide +kernel
  exact absurd (h .little wrappedTable _ hread 0 (by decide)) (by decide)

section Segments
variable {header : SegmentHeader} {data code : List SegmentHeader}

/-- Entry `i` of the table, if it is inside the file. -/
def IsEntry (native : Endian) (source : List Byte) (elfHeader : ElfHeader)
    (header : SegmentHeader) : Prop :=
  ∃ i, i < elfHeader.programHeaderEntryCount.toNat ∧
    SegmentHeader.read native source (entryOffset elfHeader i) = .ok header

theorem mem_entriesFrom {i remaining : Nat} :
    header ∈ entriesFrom native source elfHeader i remaining ↔
      ∃ j, i ≤ j ∧ j < i + remaining ∧
        SegmentHeader.read native source (entryOffset elfHeader j) = .ok header := by
  unfold entriesFrom
  simp only [List.mem_filterMap, List.mem_range'_1]
  constructor
  · rintro ⟨j, ⟨hlow, hhigh⟩, hread⟩
    refine ⟨j, hlow, hhigh, ?_⟩
    cases hentry : SegmentHeader.read native source (entryOffset elfHeader j) with
    | error e => simp [hentry, Except.toOption] at hread
    | ok entry => simpa [hentry, Except.toOption] using hread
  · rintro ⟨j, hlow, hhigh, hread⟩
    exact ⟨j, ⟨hlow, hhigh⟩, by simp [hread, Except.toOption]⟩

/-- The loop ends normally only if every segment's end, as it computes it, is in the file. -/
theorem readSegmentHeadersLoop_checked {remaining i : Nat}
    {data₀ code₀ : List SegmentHeader}
    (h : readSegmentHeadersLoop native elfHeader source remaining i data₀ code₀ =
      .ok (data, code)) :
    ∀ header ∈ entriesFrom native source elfHeader i remaining,
      header.type = SegmentHeader.typeLoad → isEmpty header = false →
        header.sourceEnd.toNat ≤ source.length := by
  induction remaining generalizing i data₀ code₀ with
  | zero => simp [entriesFrom]
  | succ remaining ih =>
    unfold readSegmentHeadersLoop at h
    obtain ⟨first, hread, h⟩ := bind_ok h
    rw [entriesFrom_succ hread, List.forall_mem_cons]
    split at h
    · next htype => exact ⟨fun hload => absurd hload htype, ih h⟩
    split at h
    · next hempty =>
      have hempty' : isEmpty first = true := decide_eq_true hempty
      exact ⟨fun _ hnonempty => by simp [hempty'] at hnonempty, ih h⟩
    split at h
    · cases h
    next hend =>
    refine ⟨fun _ _ => not_lt.mp hend, ?_⟩
    split at h
    · exact ih h
    · exact ih h

/-- The kept headers are the nonempty PT_LOAD entries. -/
theorem mem_kept (h : readSegmentHeaders native elfHeader source = .ok (data, code)) :
    header ∈ data ++ code ↔ IsEntry native source elfHeader header ∧
      header.type = SegmentHeader.typeLoad ∧ isEmpty header = false := by
  obtain ⟨hdata, hcode⟩ := readSegmentHeadersLoop_ok h
  rw [hdata, hcode, List.nil_append, List.nil_append, List.mem_append]
  unfold selected IsEntry
  simp only [List.mem_filter, mem_entriesFrom, Nat.zero_add, Nat.zero_le, true_and,
    decide_eq_true_eq, Bool.not_eq_true']
  cases isExecutable header with
  | true => simp [and_assoc]
  | false => simp [and_assoc]

theorem kept_checked (h : readSegmentHeaders native elfHeader source = .ok (data, code))
    (hmem : header ∈ data ++ code) : header.sourceEnd.toNat ≤ source.length := by
  obtain ⟨⟨i, hi, hread⟩, hload, hempty⟩ := (mem_kept h).mp hmem
  have hlisted : header ∈ entriesFrom native source elfHeader 0
      elfHeader.programHeaderEntryCount.toNat :=
    mem_entriesFrom.mpr ⟨i, Nat.zero_le i, by omega, hread⟩
  exact readSegmentHeadersLoop_checked h header hlisted hload hempty

end Segments

/-- The segment's file bytes are bytes of the file: where they end, and every one of them. -/
def SourceInside (source : List Byte) (header : SegmentHeader) : Prop :=
  header.sourceStart.toNat + header.sourceSize.toNat ≤ source.length ∧
    ∀ k, k < header.sourceSize.toNat → header.sourceStart.toNat + k < source.length

theorem sourceEnd_toNat {header : SegmentHeader}
    (hwrap : header.sourceStart.toNat + header.sourceSize.toNat < 2 ^ 64) :
    header.sourceEnd.toNat = header.sourceStart.toNat + header.sourceSize.toNat := by
  unfold SegmentHeader.sourceEnd
  rw [BitVec.toNat_add]
  exact Nat.mod_eq_of_lt hwrap

/-- Every header that is kept stays inside the file exactly when no PT_LOAD entry of the
table has an end that wraps. -/
theorem sourceInside_iff (native : Endian) (elfHeader : ElfHeader) (source : List Byte)
    (data code : List SegmentHeader)
    (hread : readSegmentHeaders native elfHeader source = .ok (data, code))
    (hfile : source.length < 2 ^ 64) :
    (∀ header ∈ data ++ code, SourceInside source header) ↔
      ∀ header, IsEntry native source elfHeader header →
        header.type = SegmentHeader.typeLoad →
          header.sourceStart.toNat + header.sourceSize.toNat < 2 ^ 64 := by
  constructor
  · intro hinside header hentry hload
    cases hempty : isEmpty header with
    | true =>
      have hsize : header.sourceSize = 0 := (of_decide_eq_true hempty).1
      have hstart := header.sourceStart.isLt
      rw [hsize]
      exact hstart
    | false =>
      have hbounds := (hinside header ((mem_kept hread).mpr ⟨hentry, hload, hempty⟩)).1
      omega
  · intro hwrap header hmem
    obtain ⟨hentry, hload, -⟩ := (mem_kept hread).mp hmem
    have hchecked := kept_checked hread hmem
    rw [sourceEnd_toNat (hwrap header hentry hload)] at hchecked
    exact ⟨hchecked, fun k hk => by omega⟩

/-- Eight bytes that start 8 bytes before the end of the offset range, with eight more. -/
def wrappedSource : SegmentHeader :=
  { type := 1, flags := 4, sourceStart := -8, sourceSize := 16, destinationSize := 16 }

theorem readSegmentHeaders_paddedFile :
    readSegmentHeaders .little (elfHeaderOf 2) paddedFile =
      .ok ([paddedSegment], [codeSegment 176]) := by decide +kernel

theorem sourceInside_iff_padded :
    (∀ header ∈ [paddedSegment] ++ [codeSegment 176], SourceInside paddedFile header) ↔
      ∀ header, IsEntry .little paddedFile (elfHeaderOf 2) header →
        header.type = SegmentHeader.typeLoad →
          header.sourceStart.toNat + header.sourceSize.toNat < 2 ^ 64 :=
  sourceInside_iff .little (elfHeaderOf 2) paddedFile [paddedSegment] [codeSegment 176]
    readSegmentHeaders_paddedFile (by decide +kernel)

/-- The end of the segment wraps to 8, which is inside the file. -/
theorem not_sourceInside_wrapped :
    ¬∀ (native : Endian) (elfHeader : ElfHeader) (source : List Byte)
      (data code : List SegmentHeader),
      readSegmentHeaders native elfHeader source = .ok (data, code) →
        ∀ header ∈ data ++ code, SourceInside source header := by
  intro h
  have hread : readSegmentHeaders .little (elfHeaderOf 1) (elfFile [wrappedSource] []) =
      .ok ([wrappedSource], []) := by decide +kernel
  have hinside := h _ _ _ _ _ hread wrappedSource (by simp)
  exact absurd hinside.1 (by decide)

end RiscvEmulator.Guarantees
