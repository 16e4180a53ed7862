import RiscvEmulator.Guarantees.ElfAcceptance
import RiscvEmulator.Guarantees.ElfOrder
import RiscvEmulator.Spec.ElfSegments

/-!
# Reading a linked file back

The numbers that `link` writes are the numbers that the loader reads: the ELF header of an
executable, one entry of the program header table for each segment, and the bytes of a
segment at the offset its entry gives.
-/
namespace RiscvEmulator.Guarantees
open Source Spec Library.ByteBuffer Library.ExceptList Library.LittleEndian Library.Ranges

variable {native : Endian}

section Numbers

@[simp] theorem length_littleEndian (count value : Nat) :
    (littleEndian count value).length = count := by
  simp [littleEndian]

theorem littleEndian_succ (count value : Nat) :
    littleEndian (count + 1) value =
      BitVec.ofNat 8 value :: littleEndian count (value / 256) := by
  unfold littleEndian
  rw [List.range_succ_eq_map, List.map_cons, List.map_map]
  congr 1
  apply List.map_congr_left
  intro i _
  have hshift : value >>> (8 * (i + 1)) = (value / 256) >>> (8 * i) := by
    rw [Nat.mul_succ, Nat.add_comm, Nat.shiftRight_add, Nat.shiftRight_eq_div_pow value 8]
  simp [hshift]

theorem number_littleEndian (count value : Nat) :
    number (littleEndian count value) = value % 256 ^ count := by
  induction count generalizing value with
  | zero => simp [littleEndian, Nat.mod_one]
  | succ count ih =>
    rw [littleEndian_succ, number_cons, ih, BitVec.toNat_ofNat, Nat.pow_succ (n := 256),
      Nat.mul_comm (256 ^ count), Nat.mod_mul]

/-- A number written and loaded again is the same number. -/
theorem loadU32_littleEndian (value : BitVec 32) (rest : List Byte) :
    loadU32 native (littleEndian 4 value.toNat ++ rest) = .ok value := by
  have hroom : 4 ≤ (littleEndian 4 value.toNat ++ rest).length := by simp
  obtain ⟨loaded, hload, hnumber⟩ := @loadU32_number native _ hroom
  have hsame : loaded.toNat = value.toNat := by
    have hvalue := value.isLt
    rw [hnumber, List.take_left' (length_littleEndian ..), number_littleEndian]
    omega
  rw [hload, BitVec.eq_of_toNat_eq hsame]

theorem loadU64_littleEndian (value : BitVec 64) (rest : List Byte) :
    loadU64 native (littleEndian 8 value.toNat ++ rest) = .ok value := by
  have hroom : 8 ≤ (littleEndian 8 value.toNat ++ rest).length := by simp
  obtain ⟨loaded, hload, hnumber⟩ := @loadU64_number native _ hroom
  have hsame : loaded.toNat = value.toNat := by
    have hvalue := value.isLt
    rw [hnumber, List.take_left' (length_littleEndian ..), number_littleEndian]
    omega
  rw [hload, BitVec.eq_of_toNat_eq hsame]

end Numbers

section Entries

theorem length_segmentHeaderBytes (header : SegmentHeader) :
    (segmentHeaderBytes header).length = 56 := by
  simp [segmentHeaderBytes]

/-- An entry that was written is read back. -/
theorem readSegmentHeader_bytes (header : SegmentHeader) :
    SegmentHeader.read native (segmentHeaderBytes header) 0 = .ok header := by
  have htype : loadU32 native ((segmentHeaderBytes header).drop 0) = .ok header.type :=
    loadU32_littleEndian header.type ((segmentHeaderBytes header).drop 4)
  have hflags : loadU32 native ((segmentHeaderBytes header).drop 4) = .ok header.flags :=
    loadU32_littleEndian header.flags ((segmentHeaderBytes header).drop 8)
  have hsourceStart : loadU64 native ((segmentHeaderBytes header).drop 8) =
      .ok header.sourceStart :=
    loadU64_littleEndian header.sourceStart ((segmentHeaderBytes header).drop 16)
  have hdestinationStart : loadU64 native ((segmentHeaderBytes header).drop 16) =
      .ok header.destinationStart :=
    loadU64_littleEndian header.destinationStart ((segmentHeaderBytes header).drop 24)
  have hsourceSize : loadU64 native ((segmentHeaderBytes header).drop 32) =
      .ok header.sourceSize :=
    loadU64_littleEndian header.sourceSize ((segmentHeaderBytes header).drop 40)
  have hdestinationSize : loadU64 native ((segmentHeaderBytes header).drop 40) =
      .ok header.destinationSize :=
    loadU64_littleEndian header.destinationSize ((segmentHeaderBytes header).drop 48)
  unfold SegmentHeader.read
  simp only [BitVec.reduceToNat, List.drop_zero] at *
  simp only [htype, hflags, hsourceStart, hdestinationStart, hsourceSize, hdestinationSize,
    ok_bind]
  rfl

end Entries

section File
variable {headers : List SegmentHeader} {body : List Byte}

theorem length_elfHeaderBytes (segmentCount : Nat) : (elfHeaderBytes segmentCount).length = 64 := by
  simp [elfHeaderBytes]

theorem elfFile_eq (headers : List SegmentHeader) (body : List Byte) :
    elfFile headers body = elfHeaderBytes headers.length ++
      (headers.map segmentHeaderBytes).flatten ++ body := rfl

/-- A field of the ELF header of a written file. -/
theorem field_elfFile {start count value : Nat} (hinside : start + count ≤ 64)
    (hfield : ((elfHeaderBytes headers.length).drop start).take count = littleEndian count value)
    (hvalue : value < 256 ^ count) : field (elfFile headers body) start count = value := by
  have hlength := length_elfHeaderBytes headers.length
  unfold field
  rw [elfFile_eq, List.append_assoc, List.drop_append_of_le_length (by omega),
    List.take_append_of_le_length (by rw [List.length_drop]; omega), hfield, number_littleEndian,
    Nat.mod_eq_of_lt hvalue]

theorem length_table (headers : List SegmentHeader) :
    (headers.map segmentHeaderBytes).flatten.length = 56 * headers.length := by
  have hlength := @length_entries (headers.map segmentHeaderBytes)
    (List.forall_mem_map.mpr fun header _ => length_segmentHeaderBytes header)
  rw [hlength, List.length_map]

theorem length_elfFile (headers : List SegmentHeader) (body : List Byte) :
    (elfFile headers body).length = 64 + 56 * headers.length + body.length := by
  rw [elfFile_eq, List.length_append, List.length_append, length_elfHeaderBytes, length_table]

theorem tableOffset_elfFile : field (elfFile headers body) 32 8 = 64 :=
  field_elfFile (by decide) rfl (by decide)

theorem entryCount_elfFile (hcount : headers.length < 2 ^ 16) :
    field (elfFile headers body) 56 2 = headers.length := field_elfFile (by decide) rfl hcount

theorem executableHeader_elfFile (hcount : headers.length < 2 ^ 16) :
    ExecutableHeader (elfFile headers body) where
  size := by
    rw [length_elfFile]
    omega
  ident := rfl
  type := field_elfFile (by decide) rfl (by decide)
  machine := field_elfFile (by decide) rfl (by decide)
  entry := field_elfFile (by decide) rfl (by decide)
  entrySize := field_elfFile (by decide) rfl (by decide)
  table := by
    rw [tableOffset_elfFile, entryCount_elfFile hcount, length_elfFile]
    omega

/-- The program headers of a written file are those it was written with. -/
theorem programHeaders_elfFile (hcount : headers.length < 2 ^ 16)
    (hfile : (elfFile headers body).length < 2 ^ 64) :
    programHeaders native (elfFile headers body) = headers := by
  have hoffset := @tableOffset_elfFile headers body
  have hentryCount := @entryCount_elfFile headers body hcount
  have hlength := length_elfFile headers body
  obtain ⟨elfHeader, hread⟩ := (@readElfHeader_accepts_iff native (elfFile headers body) (by
    rw [hoffset, hentryCount]
    omega)).mpr (executableHeader_elfFile hcount)
  obtain ⟨-, hfields, -⟩ := readElfHeader_ok hread
  have hsize : elfHeader.programHeaderEntrySize = 56 := (validate_ok (elfHeader_read_ok hread)).1
  have htable : HasTable elfHeader (elfFile headers body) (elfHeaderBytes headers.length)
      (headers.map segmentHeaderBytes) body := by
    constructor
    case offset => rw [hfields.programHeaderOffset, hoffset, length_elfHeaderBytes]
    case count => rw [hfields.programHeaderEntryCount, hentryCount, List.length_map]
    case entrySize => exact List.forall_mem_map.mpr fun header _ => length_segmentHeaderBytes header
    case bytes => exact elfFile_eq headers body
  have hentry : ((fun entry => (SegmentHeader.read native entry 0).toOption) ∘
      segmentHeaderBytes) = some := by
    funext header
    rw [Function.comp_apply, readSegmentHeader_bytes]
    rfl
  rw [← entriesFrom_zero hread, htable.entries hsize hfile, List.filterMap_map, hentry,
    List.filterMap_some]

end File

section Link
variable {parts : List Segment}

@[simp] theorem length_headersFrom (offset : Nat) (parts : List Segment) :
    (headersFrom offset parts).length = parts.length := by
  induction parts generalizing offset with
  | nil => rfl
  | cons part parts ih => rw [headersFrom, List.length_cons, ih, List.length_cons]

theorem length_link (parts : List Segment) :
    (link parts).length = 64 + 56 * parts.length + (parts.flatMap Segment.bytes).length := by
  rw [link, length_elfFile, length_headersFrom]

theorem isExecutable_header (part : Segment) (offset : Nat) :
    isExecutable (part.header offset) = part.executable := by
  unfold isExecutable Segment.header
  cases part.executable with
  | true => simp [SegmentHeader.flagExecutable]
  | false => simp [SegmentHeader.flagExecutable]

theorem filter_headersFrom (offset : Nat) (parts : List Segment) :
    ((headersFrom offset parts).filter fun header => header.type = SegmentHeader.typeLoad) =
      headersFrom offset parts := by
  induction parts generalizing offset with
  | nil => rfl
  | cons part parts ih =>
    rw [headersFrom, List.filter_cons_of_pos (by rfl), ih]

/-- The bytes from a segment's offset on are taken for the segment. -/
theorem segmentOf_header {source rest : List Byte} {part : Segment} {offset : Nat}
    (hsource : source.drop offset = part.bytes ++ rest)
    (hwrap : offset + part.bytes.length < 2 ^ 64) :
    segmentOf source (part.header offset) = part := by
  have hoffset : (part.header offset).sourceStart.toNat = offset :=
    (BitVec.toNat_ofNat ..).trans (Nat.mod_eq_of_lt (by omega))
  have hsize : (part.header offset).sourceSize.toNat = part.bytes.length :=
    (BitVec.toNat_ofNat ..).trans (Nat.mod_eq_of_lt (by omega))
  have hbytes : fileBytes source (part.header offset) = part.bytes := by
    unfold fileBytes
    rw [hoffset, hsize, hsource, List.take_left]
  unfold segmentOf
  rw [isExecutable_header, hbytes]
  rfl

theorem map_segmentOf_headersFrom {source rest : List Byte} {offset : Nat}
    (hsource : source.drop offset = parts.flatMap Segment.bytes ++ rest)
    (hwrap : offset + (parts.flatMap Segment.bytes).length < 2 ^ 64) :
    (headersFrom offset parts).map (segmentOf source) = parts := by
  induction parts generalizing offset with
  | nil => rfl
  | cons part parts ih =>
    rw [List.flatMap_cons, List.length_append] at hwrap
    rw [List.flatMap_cons, List.append_assoc] at hsource
    have hnext : source.drop (offset + part.bytes.length) =
        parts.flatMap Segment.bytes ++ rest := by
      rw [← List.drop_drop, hsource, List.drop_left]
    rw [headersFrom, List.map_cons, segmentOf_header hsource (by omega), ih hnext (by omega)]

theorem loadHeaders_link (hcount : parts.length < 2 ^ 16) (hfile : (link parts).length < 2 ^ 64) :
    loadHeaders native (link parts) = headersFrom (64 + 56 * parts.length) parts := by
  unfold loadHeaders
  rw [link, programHeaders_elfFile (by rw [length_headersFrom]; exact hcount) hfile,
    filter_headersFrom]

theorem drop_link (parts : List Segment) :
    (link parts).drop (64 + 56 * parts.length) = parts.flatMap Segment.bytes ++ [] := by
  rw [link, elfFile_eq, List.append_nil]
  apply List.drop_left'
  rw [List.length_append, length_elfHeaderBytes, length_table, length_headersFrom]

theorem segmentsOf_link (hcount : parts.length < 2 ^ 16) (hfile : (link parts).length < 2 ^ 64) :
    segmentsOf native (link parts) = parts := by
  have hlength := length_link parts
  unfold segmentsOf
  rw [loadHeaders_link hcount hfile]
  exact map_segmentOf_headersFrom (drop_link parts) (by omega)

theorem mem_headersFrom {offset : Nat} {header : SegmentHeader}
    (hmem : header ∈ headersFrom offset parts) :
    ∃ part ∈ parts, ∃ start, header = part.header start ∧
      start + part.bytes.length ≤ offset + (parts.flatMap Segment.bytes).length := by
  induction parts generalizing offset with
  | nil => cases hmem
  | cons part parts ih =>
    rw [List.flatMap_cons, List.length_append]
    rcases List.mem_cons.mp hmem with rfl | hmem
    · exact ⟨part, List.mem_cons_self, offset, rfl, by omega⟩
    · obtain ⟨other, hother, start, hheader, hend⟩ := ih hmem
      exact ⟨other, List.mem_cons_of_mem _ hother, start, hheader, by omega⟩

theorem mem_loadHeaders_link (hcount : parts.length < 2 ^ 16)
    (hfile : (link parts).length < 2 ^ 64) {header : SegmentHeader}
    (hmem : header ∈ loadHeaders native (link parts)) :
    ∃ part ∈ parts, ∃ start, header = part.header start ∧
      start + part.bytes.length ≤ (link parts).length := by
  rw [loadHeaders_link hcount hfile] at hmem
  rw [length_link]
  exact mem_headersFrom hmem

/-- The segments of a linked file end in the file. -/
theorem sourceEnd_link (hcount : parts.length < 2 ^ 16) (hfile : (link parts).length < 2 ^ 64) :
    ∀ header ∈ loadHeaders native (link parts),
      header.sourceStart.toNat + header.sourceSize.toNat ≤ (link parts).length := by
  intro header hmem
  obtain ⟨part, hpart, start, rfl, hend⟩ := mem_loadHeaders_link hcount hfile hmem
  have hstart : (part.header start).sourceStart.toNat = start :=
    (BitVec.toNat_ofNat ..).trans (Nat.mod_eq_of_lt (by omega))
  have hsize : (part.header start).sourceSize.toNat = part.bytes.length :=
    (BitVec.toNat_ofNat ..).trans (Nat.mod_eq_of_lt (by omega))
  omega

theorem readElfHeader_link (hcount : parts.length < 2 ^ 16) :
    ∃ elfHeader, ElfHeader.read native (link parts) = .ok elfHeader ∧
      EntriesInside (link parts) elfHeader := by
  have hlength := length_link parts
  have hcount' : (headersFrom (64 + 56 * parts.length) parts).length < 2 ^ 16 := by
    rw [length_headersFrom]
    exact hcount
  have hwrap : field (link parts) 32 8 + 56 * field (link parts) 56 2 < 2 ^ 64 := by
    rw [link, tableOffset_elfFile, entryCount_elfFile hcount', length_headersFrom]
    omega
  obtain ⟨elfHeader, hread⟩ := (@readElfHeader_accepts_iff native (link parts) hwrap).mpr
    (executableHeader_elfFile hcount')
  exact ⟨elfHeader, hread, entriesInside_of_read hread hwrap⟩

end Link

section Kept
variable {source : List Byte}

/-- The headers of the segments of one kind that the loader keeps. -/
def keptHeaders (native : Endian) (executable : Bool) (source : List Byte) :
    List SegmentHeader :=
  ((loadHeaders native source).filter fun header => isExecutable header = executable).filter
    fun header => !isEmpty header

theorem isEmpty_segmentOf {header : SegmentHeader}
    (hinside : isEmpty header = false →
      header.sourceStart.toNat + header.sourceSize.toNat ≤ source.length) :
    (segmentOf source header).isEmpty = isEmpty header := by
  cases hempty : isEmpty header with
  | true =>
    obtain ⟨hsource, hdestination⟩ := of_decide_eq_true hempty
    have hbytes : fileBytes source header = [] := by
      unfold fileBytes
      rw [hsource]
      exact List.take_zero
    simp [Segment.isEmpty, segmentOf, hbytes, hdestination]
  | false =>
    have hlength := length_fileBytes (hinside hempty)
    by_contra hsegment
    obtain ⟨hnil, hsize⟩ := of_decide_eq_true ((Bool.not_eq_false _).mp hsegment)
    have hbytes : fileBytes source header = [] := List.isEmpty_iff.mp hnil
    rw [hbytes, List.length_nil] at hlength
    exact of_decide_eq_false hempty ⟨BitVec.eq_of_toNat_eq hlength.symm, hsize⟩

/-- The segments the loader keeps are those of the headers it keeps. -/
theorem kept_segmentsOf (hinside : ∀ header ∈ loadHeaders native source, isEmpty header = false →
      header.sourceStart.toNat + header.sourceSize.toNat ≤ source.length) (executable : Bool) :
    kept executable (segmentsOf native source) =
      (keptHeaders native executable source).map (segmentOf source) := by
  unfold kept segmentsOf keptHeaders
  rw [List.filter_map, List.filter_filter]
  congr 1
  apply List.filter_congr
  intro header hmem
  have hempty := isEmpty_segmentOf (hinside header hmem)
  have hkind : (segmentOf source header).executable = isExecutable header := rfl
  simp only [Function.comp_apply, hempty, hkind, Bool.decide_and, Bool.decide_eq_true]
  exact Bool.and_comm _ _

theorem readSegmentHeaders_keptHeaders {elfHeader : ElfHeader}
    (hread : ElfHeader.read native source = .ok elfHeader)
    (htable : EntriesInside source elfHeader)
    (hsource : ∀ header ∈ loadHeaders native source,
      header.sourceStart.toNat + header.sourceSize.toNat < 2 ^ 64)
    (hinside : ∀ header ∈ loadHeaders native source, isEmpty header = false →
      header.sourceStart.toNat + header.sourceSize.toNat ≤ source.length) :
    readSegmentHeaders native elfHeader source =
      .ok (keptHeaders native false source, keptHeaders native true source) := by
  rw [readSegmentHeaders_kept hread htable hsource hinside]
  simp [keptHeaders, dataHeaders, codeHeaders]

end Kept

/-- The loader finds in a linked file the segments it was linked from, in their order, and
keeps those that are not empty. -/
theorem readSegmentHeaders_link (native : Endian) (parts : List Segment)
    (hcount : parts.length < 2 ^ 16) (hfile : (link parts).length < 2 ^ 64) :
    ∃ elfHeader data code, ElfHeader.read native (link parts) = .ok elfHeader ∧
      readSegmentHeaders native elfHeader (link parts) = .ok (data, code) ∧
      data.map (segmentOf (link parts)) = kept false parts ∧
      code.map (segmentOf (link parts)) = kept true parts := by
  obtain ⟨elfHeader, hread, htable⟩ := @readElfHeader_link native parts hcount
  have hends := @sourceEnd_link native parts hcount hfile
  have hkept (executable : Bool) :=
    @kept_segmentsOf native (link parts) (fun header hmem _ => hends header hmem) executable
  rw [segmentsOf_link hcount hfile] at hkept
  exact ⟨elfHeader, _, _, hread, readSegmentHeaders_keptHeaders hread htable
    (fun header hmem => (hends header hmem).trans_lt hfile)
    (fun header hmem _ => hends header hmem),
    (hkept false).symm, (hkept true).symm⟩

/-- One instruction in two pieces, an empty segment and two bytes of data with their padding. -/
def splitParts : List Segment :=
  [⟨true, 2, [0, 0], 2⟩, ⟨false, 0, [], 0⟩, ⟨false, 2, [0xaa, 0xbb], 4⟩, ⟨true, 0, [0x13, 0], 2⟩]

theorem readSegmentHeaders_link_split :
    ∃ elfHeader data code, ElfHeader.read .big (link splitParts) = .ok elfHeader ∧
      readSegmentHeaders .big elfHeader (link splitParts) = .ok (data, code) ∧
      data.map (segmentOf (link splitParts)) = kept false splitParts ∧
      code.map (segmentOf (link splitParts)) = kept true splitParts :=
  readSegmentHeaders_link .big splitParts (by decide) (by decide +kernel)

end RiscvEmulator.Guarantees
