import RiscvEmulator.Guarantees.ArrayAllocation
import RiscvEmulator.Guarantees.ElfDefined
import RiscvEmulator.Spec.ElfLoadable

/-!
# The files the loader accepts

Where neither the end of the program header table nor the end of a segment wraps, the
checks of the loader are the conditions on a loadable file, which do not speak of an
order: headers that pass a comparison with their neighbour once sorted are disjoint, or
tile the code memory, and conversely.
-/
namespace RiscvEmulator.Guarantees
open Source Spec Library.ByteBuffer Library.ExceptList Library.LittleEndian Library.Ranges

variable {native : Endian} {source : List Byte} {elfHeader : ElfHeader}

section Header

/-- The header has the numbers that stand at their offsets of the file. -/
structure HeaderFields (source : List Byte) (elfHeader : ElfHeader) : Prop where
  magic : elfHeader.magic.toNat = field source 0 4
  elfClass : elfHeader.elfClass.toNat = field source 4 1
  data : elfHeader.data.toNat = field source 5 1
  version : elfHeader.version.toNat = field source 6 1
  osABI : elfHeader.osABI.toNat = field source 7 1
  type : elfHeader.type.toNat = field source 16 2
  machine : elfHeader.machine.toNat = field source 18 2
  entry : elfHeader.entry.toNat = field source 24 8
  programHeaderOffset : elfHeader.programHeaderOffset.toNat = field source 32 8
  programHeaderEntrySize : elfHeader.programHeaderEntrySize.toNat = field source 54 2
  programHeaderEntryCount : elfHeader.programHeaderEntryCount.toNat = field source 56 2

theorem dereference_number : ∀ {ptr : List Byte}, 1 ≤ ptr.length →
    ∃ value, dereference ptr = .ok value ∧ value.toNat = number (ptr.take 1)
  | b0 :: _, _ => ⟨b0, rfl, by simp⟩

/-- Sixty-four bytes are a header, which is then validated. -/
theorem readElfHeader_fields (hsize : 64 ≤ source.length) :
    ∃ elfHeader, HeaderFields source elfHeader ∧ ElfHeader.read native source =
      (elfHeader.validate source >>= fun _ => pure elfHeader) := by
  have hroom (n : Nat) : (source.drop n).length = source.length - n := List.length_drop
  have h8 (n : Nat) (hn : n + 1 ≤ 64) : ∃ value, dereference (source.drop n) = .ok value ∧
      value.toNat = field source n 1 := dereference_number (by rw [hroom]; omega)
  have h16 (n : Nat) (hn : n + 2 ≤ 64) : ∃ value, loadU16 native (source.drop n) = .ok value ∧
      value.toNat = field source n 2 := loadU16_number (by rw [hroom]; omega)
  have h32 (n : Nat) (hn : n + 4 ≤ 64) : ∃ value, loadU32 native (source.drop n) = .ok value ∧
      value.toNat = field source n 4 := loadU32_number (by rw [hroom]; omega)
  have h64 (n : Nat) (hn : n + 8 ≤ 64) : ∃ value, loadU64 native (source.drop n) = .ok value ∧
      value.toNat = field source n 8 := loadU64_number (by rw [hroom]; omega)
  obtain ⟨magic, hmagic, hmagicField⟩ := h32 0 (by omega)
  obtain ⟨elfClass, hclass, hclassField⟩ := h8 4 (by omega)
  obtain ⟨data, hdata, hdataField⟩ := h8 5 (by omega)
  obtain ⟨version, hversion, hversionField⟩ := h8 6 (by omega)
  obtain ⟨osABI, habi, habiField⟩ := h8 7 (by omega)
  obtain ⟨type, htype, htypeField⟩ := h16 16 (by omega)
  obtain ⟨machine, hmachine, hmachineField⟩ := h16 18 (by omega)
  obtain ⟨entry, hentry, hentryField⟩ := h64 24 (by omega)
  obtain ⟨programHeaderOffset, hoffset, hoffsetField⟩ := h64 32 (by omega)
  obtain ⟨programHeaderEntrySize, hentrySize, hentrySizeField⟩ := h16 54 (by omega)
  obtain ⟨programHeaderEntryCount, hcount, hcountField⟩ := h16 56 (by omega)
  refine ⟨.mk magic elfClass data version osABI type machine entry programHeaderOffset
    programHeaderEntrySize programHeaderEntryCount, ?_, ?_⟩
  · exact {
      magic := hmagicField
      elfClass := hclassField
      data := hdataField
      version := hversionField
      osABI := habiField
      type := htypeField
      machine := hmachineField
      entry := hentryField
      programHeaderOffset := hoffsetField
      programHeaderEntrySize := hentrySizeField
      programHeaderEntryCount := hcountField }
  · have hnotSmall : ¬source.length < ElfHeader.elfHeaderSize := not_lt.mpr hsize
    unfold ElfHeader.read
    rw [if_neg hnotSmall]
    simp only [hmagic, hclass, hdata, hversion, habi, htype, hmachine, hentry, hoffset, hentrySize,
      hcount, ok_bind]

theorem eq_iff_field {w start count : Nat} {value expected : BitVec w}
    (h : value.toNat = field source start count) :
    value = expected ↔ field source start count = expected.toNat := by
  rw [← h, BitVec.toNat_inj]

/-- The first eight bytes, as the five numbers the loader makes of them. -/
theorem ident_iff (hsize : 8 ≤ source.length) :
    source.take 8 = [0x7f, 0x45, 0x4c, 0x46, 2, 1, 1, 0] ↔
      field source 0 4 = 0x464c457f ∧ field source 4 1 = 2 ∧ field source 5 1 = 1 ∧
        field source 6 1 = 1 ∧ field source 7 1 = 0 := by
  obtain ⟨b0, b1, b2, b3, b4, b5, b6, b7, rest, rfl⟩ :
      ∃ b0 b1 b2 b3 b4 b5 b6 b7 rest,
        source = b0 :: b1 :: b2 :: b3 :: b4 :: b5 :: b6 :: b7 :: rest :=
    match source, hsize with
    | b0 :: b1 :: b2 :: b3 :: b4 :: b5 :: b6 :: b7 :: rest, _ =>
      ⟨b0, b1, b2, b3, b4, b5, b6, b7, rest, rfl⟩
  simp only [field, List.drop_zero, List.drop_succ_cons, List.take_succ_cons, List.take_zero,
    number_cons, number_nil, List.cons.injEq, and_true]
  simp only [← BitVec.toNat_inj]
  have h0 := b0.isLt
  have h1 := b1.isLt
  have h2 := b2.isLt
  have h3 := b3.isLt
  simp only [BitVec.reduceToNat]
  omega

theorem tableEnd_toNat (hentrySize : elfHeader.programHeaderEntrySize = 56)
    (hwrap : elfHeader.programHeaderOffset.toNat +
      56 * elfHeader.programHeaderEntryCount.toNat < 2 ^ 64) :
    (elfHeader.programHeaderOffset + elfHeader.programHeaderEntryCount.setWidth 64 *
      elfHeader.programHeaderEntrySize.setWidth 64).toNat =
        elfHeader.programHeaderOffset.toNat + 56 * elfHeader.programHeaderEntryCount.toNat := by
  rw [hentrySize]
  simp only [BitVec.toNat_add, BitVec.toNat_mul, BitVec.toNat_setWidth, BitVec.reduceToNat]
  omega

/-- The validated fields are those of an executable. -/
theorem validate_iff (hsize : 64 ≤ source.length) (hfields : HeaderFields source elfHeader)
    (hwrap : field source 32 8 + 56 * field source 56 2 < 2 ^ 64) :
    elfHeader.validate source = .ok () ↔ ExecutableHeader source := by
  have hident := @ident_iff source (by omega)
  have hmagic : elfHeader.magic = ElfHeader.elfMagic ↔ field source 0 4 = 0x464c457f :=
    eq_iff_field hfields.magic
  have hclass : elfHeader.elfClass = ElfHeader.elfClass64 ↔ field source 4 1 = 2 :=
    eq_iff_field hfields.elfClass
  have hdata : elfHeader.data = ElfHeader.elfDataLittleEndian ↔ field source 5 1 = 1 :=
    eq_iff_field hfields.data
  have hversion : elfHeader.version = ElfHeader.elfVersion1 ↔ field source 6 1 = 1 :=
    eq_iff_field hfields.version
  have habi : elfHeader.osABI = ElfHeader.osABISystemV ↔ field source 7 1 = 0 :=
    eq_iff_field hfields.osABI
  have htype : elfHeader.type = ElfHeader.elfTypeExecutable ↔ field source 16 2 = 2 :=
    eq_iff_field hfields.type
  have hmachine : elfHeader.machine = ElfHeader.elfMachineRISCV ↔ field source 18 2 = 243 :=
    eq_iff_field hfields.machine
  have hentry : elfHeader.entry = ElfHeader.entrypointStart ↔ field source 24 8 = 0 :=
    eq_iff_field hfields.entry
  have hentrySize : elfHeader.programHeaderEntrySize = ElfHeader.elfProgramHeaderEntrySize64 ↔
      field source 54 2 = 56 := eq_iff_field hfields.programHeaderEntrySize
  have hend (hsize : elfHeader.programHeaderEntrySize = 56) :
      (elfHeader.programHeaderOffset + elfHeader.programHeaderEntryCount.setWidth 64 *
        elfHeader.programHeaderEntrySize.setWidth 64).toNat =
          field source 32 8 + 56 * field source 56 2 := by
    rw [← hfields.programHeaderOffset, ← hfields.programHeaderEntryCount] at hwrap ⊢
    exact tableEnd_toNat hsize hwrap
  unfold ElfHeader.validate
  constructor
  · intro h
    split at h
    · cases h
    next hvalid =>
    split at h
    · cases h
    next hstart =>
    split at h
    · cases h
    next hbounds =>
    obtain ⟨h0, h4, h5, h6, h7, h16, h18, h54⟩ := not_not.mp hvalid
    rw [hend h54] at hbounds
    exact {
      size := hsize
      ident := hident.mpr ⟨hmagic.mp h0, hclass.mp h4, hdata.mp h5, hversion.mp h6, habi.mp h7⟩
      type := htype.mp h16
      machine := hmachine.mp h18
      entry := hentry.mp (not_not.mp hstart)
      entrySize := hentrySize.mp h54
      table := not_lt.mp hbounds }
  · intro h
    obtain ⟨h0, h4, h5, h6, h7⟩ := hident.mp h.ident
    have h54 := hentrySize.mpr h.entrySize
    rw [if_neg (not_not.mpr ⟨hmagic.mpr h0, hclass.mpr h4, hdata.mpr h5, hversion.mpr h6,
        habi.mpr h7, htype.mpr h.type, hmachine.mpr h.machine, h54⟩),
      if_neg (not_not.mpr (hentry.mpr h.entry)), hend h54, if_neg (not_lt.mpr h.table)]

theorem readElfHeader_ok (h : ElfHeader.read native source = .ok elfHeader) :
    64 ≤ source.length ∧ HeaderFields source elfHeader ∧
      elfHeader.validate source = .ok () := by
  by_cases hsize : 64 ≤ source.length
  · obtain ⟨read, hfields, hread⟩ := @readElfHeader_fields native source hsize
    rw [hread] at h
    obtain ⟨⟨⟩, hvalid, h⟩ := bind_ok h
    obtain rfl := Except.ok.inj h
    exact ⟨hsize, hfields, hvalid⟩
  · have hsmall : source.length < ElfHeader.elfHeaderSize := not_le.mp hsize
    unfold ElfHeader.read at h
    rw [if_pos hsmall] at h
    cases h

/-- The header is read exactly when it is the header of an executable. -/
theorem readElfHeader_accepts_iff (hwrap : field source 32 8 + 56 * field source 56 2 < 2 ^ 64) :
    (∃ elfHeader, ElfHeader.read native source = .ok elfHeader) ↔ ExecutableHeader source := by
  constructor
  · rintro ⟨elfHeader, h⟩
    obtain ⟨hsize, hfields, hvalid⟩ := readElfHeader_ok h
    exact (validate_iff hsize hfields hwrap).mp hvalid
  · intro h
    obtain ⟨elfHeader, hfields, hread⟩ := @readElfHeader_fields native source h.size
    have hvalid := (validate_iff h.size hfields hwrap).mpr h
    rw [hvalid, ok_bind] at hread
    exact ⟨elfHeader, hread⟩

/-- The table of an accepted file is inside it. -/
theorem entriesInside_of_read (h : ElfHeader.read native source = .ok elfHeader)
    (hwrap : field source 32 8 + 56 * field source 56 2 < 2 ^ 64) :
    EntriesInside source elfHeader := by
  obtain ⟨-, hfields, hvalid⟩ := readElfHeader_ok h
  apply entriesInside_of_noWrap hvalid
  rw [hfields.programHeaderOffset, hfields.programHeaderEntryCount]
  exact hwrap

end Header

section Validators
variable {headers : List SegmentHeader}

theorem anyNeighbours_of_isChain {fails : SegmentHeader → SegmentHeader → Bool}
    (h : headers.IsChain fun a b => fails a b = false) : anyNeighbours fails headers = false := by
  induction headers with
  | nil => rfl
  | cons header headers ih =>
    cases headers with
    | nil => rfl
    | cons next headers =>
      obtain ⟨hfirst, hrest⟩ := List.isChain_cons_cons.mp h
      unfold anyNeighbours
      rw [hfirst, ih hrest]
      rfl

theorem validateDataHeaders_accepts
    (hfits : ∀ header ∈ headers, header.sourceSize.toNat ≤ header.destinationSize.toNat)
    (hchain : headers.IsChain fun a b => a.destinationEnd.toNat ≤ b.destinationStart.toNat) :
    validateDataHeaders headers = .ok () := by
  have htruncated : (headers.any fun header => header.sourceSize > header.destinationSize) =
      false := by
    rw [List.any_eq_false]
    intro header hmem
    have hfit := hfits header hmem
    rw [decide_eq_true_eq, gt_iff_lt, BitVec.lt_def]
    omega
  have hneighbours : anyNeighbours (fun header next =>
      decide (header.destinationEnd > next.destinationStart)) headers = false := by
    apply anyNeighbours_of_isChain
    refine hchain.imp fun a b hab => decide_eq_false ?_
    rw [gt_iff_lt, BitVec.lt_def]
    omega
  unfold validateDataHeaders
  rw [htruncated, hneighbours]
  rfl

theorem validateCodeHeaders_accepts {first : SegmentHeader}
    (hzero : first.destinationStart = 0)
    (hsizes : ∀ header ∈ first :: headers, header.destinationSize = header.sourceSize)
    (hchain : (first :: headers).IsChain fun a b => a.destinationEnd = b.destinationStart) :
    validateCodeHeaders (first :: headers) = .ok () := by
  have hpadded : ((first :: headers).any fun header =>
      header.destinationSize != header.sourceSize) = false := by
    rw [List.any_eq_false]
    intro header hmem
    simp [hsizes header hmem]
  have hneighbours : anyNeighbours (fun header next =>
      header.destinationEnd != next.destinationStart) (first :: headers) = false := by
    apply anyNeighbours_of_isChain
    refine hchain.imp fun a b hab => ?_
    simp [hab]
  unfold validateCodeHeaders
  dsimp only
  rw [hpadded, hneighbours, if_neg (not_not.mpr hzero)]
  rfl

/-- Disjoint ranges pass the comparison of neighbours once they are sorted. -/
theorem dataChain_of_disjoint (horder : AddressOrder headers)
    (hwrap : ∀ header ∈ headers, (destinationRange header).stop < 2 ^ 64)
    (hpos : ∀ header ∈ headers, 0 < header.destinationSize.toNat)
    (hdisjoint : headers.Pairwise fun a b => (destinationRange a).Disjoint (destinationRange b)) :
    headers.IsChain fun a b => a.destinationEnd.toNat ≤ b.destinationStart.toNat := by
  apply List.Pairwise.isChain
  refine (horder.and hdisjoint).imp_of_mem fun {a b} ha hb hab => ?_
  have hsize := hpos b hb
  have hbefore : (destinationRange a).Before (destinationRange b) :=
    Range.before_of_disjoint hab.1 (Nat.lt_add_of_pos_right hsize) hab.2
  rw [destinationEnd_toNat (hwrap a ha)]
  exact hbefore

/-- Ranges that tile the places up to `size` adjoin once they are sorted. -/
theorem codeChain_of_tiles {size : Nat} (horder : AddressOrder headers)
    (hwrap : ∀ header ∈ headers, (destinationRange header).stop < 2 ^ 64)
    (hpos : ∀ header ∈ headers, 0 < header.destinationSize.toNat)
    (htiles : ∀ i, headers.countP (fun header => decide ((destinationRange header).Contains i)) =
      if i < size then 1 else 0) :
    (headers.IsChain fun a b => a.destinationEnd = b.destinationStart) ∧
      ∀ first ∈ headers.head?, first.destinationStart = 0 := by
  obtain ⟨hchain, hfirst⟩ := @Range.isChain_adjoins_of_countP (headers.map destinationRange) 0 size
    (List.forall_mem_map.mpr fun header hmem => Nat.lt_add_of_pos_right (hpos header hmem))
    (List.pairwise_map.mpr horder) fun i => by
      rw [List.countP_map]
      exact (htiles i).trans (if_congr (by omega) rfl rfl)
  constructor
  · rw [List.isChain_map] at hchain
    refine hchain.imp_of_mem_imp fun a b ha _ hab => BitVec.eq_of_toNat_eq ?_
    rw [destinationEnd_toNat (hwrap a ha)]
    exact hab
  · intro first hmem
    apply BitVec.eq_of_toNat_eq
    exact hfirst (destinationRange first) (by
      rw [List.head?_map, hmem]
      rfl)

end Validators

section Tiles
variable {headers : List SegmentHeader}

theorem not_contains_of_isEmpty {header : SegmentHeader} (hempty : isEmpty header = true)
    (i : Nat) : ¬(destinationRange header).Contains i := by
  obtain ⟨-, hsize⟩ := of_decide_eq_true hempty
  unfold Range.Contains
  rw [destinationRange_start, destinationRange_stop, hsize]
  exact fun hin => absurd hin.2 (not_lt.mpr hin.1)

/-- Empty segments tile nothing. -/
theorem countP_nonempty (i : Nat) :
    (headers.filter fun header => !isEmpty header).countP (fun header =>
        decide ((destinationRange header).Contains i)) =
      headers.countP fun header => decide ((destinationRange header).Contains i) := by
  rw [List.countP_filter]
  apply List.countP_congr
  intro header _
  cases hempty : isEmpty header with
  | true => simp [not_contains_of_isEmpty hempty i]
  | false => simp

/-- Empty segments overlap nothing. -/
theorem disjoint_nonempty_iff :
    ((headers.filter fun header => !isEmpty header).Pairwise fun a b =>
        (destinationRange a).Disjoint (destinationRange b)) ↔
      headers.Pairwise fun a b => (destinationRange a).Disjoint (destinationRange b) := by
  rw [List.pairwise_filter]
  constructor
  · refine fun h => h.imp fun {a b} hab i hboth => ?_
    cases ha : isEmpty a with
    | true => exact not_contains_of_isEmpty ha i hboth.1
    | false =>
      cases hb : isEmpty b with
      | true => exact not_contains_of_isEmpty hb i hboth.2
      | false => exact hab (by simp [ha]) (by simp [hb]) i hboth
  · exact fun h => h.imp fun hab _ _ => hab

/-- Two ranges from 0 on that hold the same places end at the same place. -/
theorem tiles_unique {count : Nat → Nat} {size size' : Nat}
    (h : ∀ i, count i = if i < size then 1 else 0)
    (h' : ∀ i, count i = if i < size' then 1 else 0) : size = size' := by
  have hsize := (h size).symm.trans (h' size)
  have hsize' := (h size').symm.trans (h' size')
  simp only [Nat.lt_irrefl, if_false] at hsize hsize'
  split at hsize
  · cases hsize
  split at hsize'
  · cases hsize'
  omega

end Tiles

section Accepted
variable {std : StdSort SegmentHeader.less} {memory : Arena} {data code : List SegmentHeader}

theorem disjoint_symm : Std.Symm fun a b : SegmentHeader =>
    (destinationRange a).Disjoint (destinationRange b) := ⟨fun _ _ h i hi => h i hi.symm⟩

/-- The code memory of an accepted file is not empty. -/
theorem AcceptedHeaders.code_total_pos (haccepted : AcceptedHeaders native source data code)
    (hwrap : ∀ header ∈ code, (destinationRange header).stop < 2 ^ 64) : 0 < totalSize code := by
  obtain ⟨first, rest, hcode, -⟩ := haccepted.codeFirst
  have hmem : first ∈ code := by
    rw [hcode]
    exact List.mem_cons_self
  have hpos := haccepted.code_size_pos hmem
  have hstop := stop_le_totalSize ((adjoins_of_chain haccepted.codeChain hwrap).imp
    fun _ _ => Range.Adjoins.before) hwrap first hmem
  rw [destinationRange_stop] at hstop
  omega

/-- What the accepted headers say of the entries of the table. -/
theorem AcceptedHeaders.code_tiles (haccepted : AcceptedHeaders native source data code)
    (hwrap : ∀ header ∈ code, (destinationRange header).stop < 2 ^ 64) (i : Nat) :
    (codeHeaders native source).countP (fun header =>
      decide ((destinationRange header).Contains i)) = if i < totalSize code then 1 else 0 := by
  rw [← countP_nonempty, ← haccepted.codePerm.countP_eq]
  exact codeTiles_of_chain haccepted hwrap i

theorem AcceptedHeaders.data_disjoint (haccepted : AcceptedHeaders native source data code)
    (hwrap : ∀ header ∈ data, (destinationRange header).stop < 2 ^ 64) :
    (dataHeaders native source).Pairwise fun a b =>
      (destinationRange a).Disjoint (destinationRange b) := by
  have hpairs := Range.pairwise_disjoint (before_of_chain haccepted.dataChain hwrap)
  rw [List.pairwise_map] at hpairs
  rw [← disjoint_nonempty_iff]
  exact (haccepted.dataPerm.pairwise_iff (fun {_ _} h => disjoint_symm.symm _ _ h)).mp hpairs

/-- The program of an accepted file is the one its sorted code segments hold. -/
theorem AcceptedHeaders.hasProgram_iff (haccepted : AcceptedHeaders native source data code)
    (hwrap : ∀ header ∈ code, (destinationRange header).stop < 2 ^ 64) {program : List Byte} :
    HasProgram native source program ↔ code.flatMap (fileBytes source) = program := by
  constructor
  · rintro ⟨headers, hperm, horder, rfl⟩
    exact (flatMap_fileBytes_code haccepted hwrap hperm horder).symm
  · rintro rfl
    refine ⟨insertionSort.sort (codeHeaders native source), insertionSort.perm _,
      addressOrder_sort insertionSort _, ?_⟩
    exact flatMap_fileBytes_code haccepted hwrap (insertionSort.perm _)
      (addressOrder_sort insertionSort _)

end Accepted

section Map
variable {Handler : Type} {emulator mapped : Emulator Handler} {data code : List SegmentHeader}
  {arena : Arena}

/-- Storage that has bytes is not at address 0. -/
def Placed (arena : Arena) : Prop := 0 < arena.raw.length → 0 < arena.base

theorem hasRoom_byte_iff (hplaced : Placed arena) {size : Nat} (hsize : 0 < size) :
    HasRoom arena size ItemType.byte.alignment ↔ size ≤ arena.getFreeSpace := by
  have hpadding : padding arena ItemType.byte.alignment = 0 := Nat.mod_one _
  constructor
  · intro hroom
    have hfits := hroom.fits
    rwa [hpadding] at hfits
  · intro hfits
    have hfree := arena.free_le
    unfold Arena.getFreeSpace at hfits
    have hbase := hplaced (by unfold Arena.raw; omega)
    exact ⟨by rw [hpadding]; exact hfits, by omega⟩

theorem allocateDataMemory_accepts_iff (hplaced : Placed arena) {total : BitVec 64}
    (htotal : 0 < total.toNat) :
    (∃ origin allocated, allocateDataMemory arena total = .ok (origin, allocated)) ↔
      total.toNat ≤ arena.getFreeSpace := by
  have hexact := byte_size_mul total
  have hroom := hasRoom_byte_iff hplaced htotal
  rw [← hroom]
  constructor
  · rintro ⟨origin, allocated, h⟩
    by_contra hnone
    rw [← hexact] at hnone
    have hthrow := allocateArray_of_no_room hnone
    rw [allocateDataMemory_ok h] at hthrow
    cases hthrow
  · intro h
    have hsize : ItemType.byte.size * total.toNat < 2 ^ 64 := by
      rw [show ItemType.byte.size = 1 from rfl, Nat.one_mul]
      exact total.isLt
    rw [← hexact] at h
    obtain ⟨origin, allocated, hok, -⟩ := allocateArray_of_hasRoom hsize h
    refine ⟨origin, allocated, ?_⟩
    unfold allocateDataMemory
    rw [hok]

theorem arena_copySegments_accepts {headers : List SegmentHeader} {origin : Nat}
    {storage : List Byte} (h : copySegments source origin headers arena.storage = .ok storage) :
    ∃ arena', arena.copySegments source origin headers = .ok arena' := by
  unfold Arena.copySegments
  split
  · exact ⟨_, rfl⟩
  · next e herror =>
    rw [h] at herror
    cases herror

/-- Data segments inside the file are mapped if and only if there is room for them. -/
theorem mapDataSegments_accepts_iff (hplaced : Placed emulator.memory)
    (hsource : ∀ header ∈ data,
      header.sourceStart.toNat + header.sourceSize.toNat ≤ source.length)
    (hwrites : ∀ header ∈ data,
      header.destinationStart.toNat + header.sourceSize.toNat ≤ totalSize data)
    (hpos : ∀ header ∈ data, 0 < totalSize data) :
    (∃ mapped, mapDataSegments data source emulator = .ok mapped) ↔
      totalSize data ≤ emulator.memory.getFreeSpace := by
  cases hlast : data.getLast? with
  | none =>
    obtain rfl := List.getLast?_eq_none_iff.mp hlast
    exact iff_of_true ⟨emulator, rfl⟩ (Nat.zero_le _)
  | some last =>
    have htotal := totalSize_eq hlast
    have htotalPos := hpos last (List.mem_of_getLast? hlast)
    rw [htotal] at htotalPos
    have hallocates := allocateDataMemory_accepts_iff hplaced htotalPos
    rw [htotal, ← hallocates]
    unfold mapDataSegments
    rw [hlast]
    dsimp only
    constructor
    · rintro ⟨mapped, h⟩
      obtain ⟨⟨origin, allocated⟩, hallocate, -⟩ := bind_ok h
      exact ⟨origin, allocated, hallocate⟩
    · rintro ⟨origin, allocated, hallocate⟩
      obtain ⟨-, hinside, -, -⟩ := allocateArray_byte (allocateDataMemory_ok hallocate)
      obtain ⟨storage, hcopy⟩ := @copySegments_accepts source data origin allocated.storage hsource
        fun header hmem => by
          have hwrite := hwrites header hmem
          omega
      obtain ⟨filled, hfilled⟩ := arena_copySegments_accepts hcopy
      rw [hallocate, ok_bind]
      dsimp only
      rw [hfilled]
      exact ⟨_, rfl⟩

/-- Code segments that tile the code memory are mapped if and only if their bytes are a
program of a size a vector can have. -/
theorem mapCodeSegments_accepts_iff {std : StdSort SegmentHeader.less}
    (hheaders : readHeaders std native source = .ok (data, code))
    (hnowrap : ∀ header ∈ loadHeaders native source, NoWrap header) :
    (∃ loaded, mapCodeSegments native code source mapped = .ok loaded) ↔
      totalSize code ≤ vectorMaxSize ∧ ∃ instructions,
        decodeInstructions native (code.flatMap (fileBytes source)) = .ok instructions := by
  have haccepted := readHeaders_ok hheaders
  have hinside := readHeaders_inside hheaders hnowrap
  have hdestination := fun header hmem => (hnowrap header hmem).destination
  have hwrapCode := (haccepted.forall_load hdestination).2
  have hsound := destinationsSound_of_noWrap haccepted hdestination
  obtain ⟨buffer, hcopy⟩ := @copySegments_accepts source code 0
    (List.replicate (totalSize code) 0)
    (fun header hmem => hinside header (List.mem_append_right data hmem))
    (fun header hmem => by
      have hwrite := hsound.codeWrites header hmem
      rw [List.length_replicate]
      omega)
  obtain ⟨first, rest, rfl, hzero⟩ := haccepted.codeFirst
  have hbuffer := copySegments_contiguous hzero haccepted.codeSizes
    (adjoins_of_chain haccepted.codeChain hwrapCode) hwrapCode hcopy
  obtain ⟨last, hlast⟩ : ∃ last, (first :: rest).getLast? = some last :=
    ⟨_, List.getLast?_eq_some_getLast (List.cons_ne_nil first rest)⟩
  have htotal := totalSize_eq hlast
  rw [htotal] at hcopy ⊢
  rw [← hbuffer]
  unfold mapCodeSegments
  rw [hlast]
  dsimp only
  by_cases hsize : last.destinationEnd.toNat ≤ vectorMaxSize
  · rw [if_neg (not_lt.mpr hsize), hcopy, ok_bind]
    cases hdecode : decodeInstructions native buffer with
    | ok instructions => exact iff_of_true ⟨_, rfl⟩ ⟨hsize, instructions, rfl⟩
    | error object =>
      refine iff_of_false ?_ ?_
      · rintro ⟨loaded, h⟩
        cases h
      · rintro ⟨-, instructions, h⟩
        cases h
  · rw [if_pos (not_le.mp hsize)]
    refine iff_of_false ?_ (fun h => hsize h.1)
    rintro ⟨loaded, h⟩
    cases h

end Map

section Load
variable {std : StdSort SegmentHeader.less} {memory : Arena} {data code : List SegmentHeader}

theorem size_pos_of_fits {header : SegmentHeader} (hnonempty : isEmpty header = false)
    (hfit : header.sourceSize.toNat ≤ header.destinationSize.toNat) :
    0 < header.destinationSize.toNat := by
  apply Nat.pos_of_ne_zero
  intro hzero
  have hsource : header.sourceSize.toNat = 0 := by omega
  exact of_decide_eq_false hnonempty
    ⟨BitVec.eq_of_toNat_eq hsource, BitVec.eq_of_toNat_eq hzero⟩

/-- A table inside the file is read to its end if its segments are inside the file. -/
theorem readSegmentHeaders_kept (hread : ElfHeader.read native source = .ok elfHeader)
    (htable : EntriesInside source elfHeader)
    (hsource : ∀ header ∈ loadHeaders native source,
      header.sourceStart.toNat + header.sourceSize.toNat < 2 ^ 64)
    (hinside : ∀ header ∈ loadHeaders native source, isEmpty header = false →
      header.sourceStart.toNat + header.sourceSize.toNat ≤ source.length) :
    readSegmentHeaders native elfHeader source =
      .ok ((dataHeaders native source).filter fun header => !isEmpty header,
        (codeHeaders native source).filter fun header => !isEmpty header) := by
  have hentries := entriesFrom_zero hread
  obtain ⟨⟨data, code⟩, hkept⟩ : ∃ kept, readSegmentHeaders native elfHeader source = .ok kept := by
    apply readSegmentHeaders_accepts htable
    intro header hmem hout
    rw [hentries] at hmem
    have hload : header ∈ loadHeaders native source :=
      List.mem_filter.mpr ⟨hmem, decide_eq_true hout.1⟩
    have hfits := hinside header hload hout.2.1
    have hend := sourceEnd_toNat (hsource header hload)
    have hlarge := hout.2.2
    omega
  obtain ⟨hdata, hcode⟩ := readSegmentHeadersLoop_ok hkept
  rw [List.nil_append, hentries] at hdata hcode
  rw [hkept, hdata, hcode]
  rfl

/-- The validators accept the sorted headers of a loadable file. -/
theorem readHeaders_loadable (hwrap : field source 32 8 + 56 * field source 56 2 < 2 ^ 64)
    (hnowrap : ∀ header ∈ loadHeaders native source, NoWrap header)
    (h : Loadable native source memory) :
    ∃ data code, readHeaders std native source = .ok (data, code) := by
  obtain ⟨elfHeader, hread⟩ := (readElfHeader_accepts_iff hwrap).mpr h.header
  have hkept := readSegmentHeaders_kept hread (entriesInside_of_read hread hwrap)
    (fun header hmem => (hnowrap header hmem).source) h.inside
  generalize hdata : (dataHeaders native source).filter (fun header => !isEmpty header) = data₀
    at hkept
  generalize hcode : (codeHeaders native source).filter (fun header => !isEmpty header) = code₀
    at hkept
  have hdataPerm := std.perm data₀
  have hcodePerm := std.perm code₀
  have hdataMem (header : SegmentHeader) (hmem : header ∈ std.sort data₀) :
      header ∈ dataHeaders native source ∧ isEmpty header = false := by
    rw [hdataPerm.mem_iff, ← hdata, List.mem_filter, Bool.not_eq_true'] at hmem
    exact hmem
  have hcodeMem (header : SegmentHeader) (hmem : header ∈ std.sort code₀) :
      header ∈ codeHeaders native source ∧ isEmpty header = false := by
    rw [hcodePerm.mem_iff, ← hcode, List.mem_filter, Bool.not_eq_true'] at hmem
    exact hmem
  have hvalidData : validateDataHeaders (sortHeadersBySegmentAddresses std data₀) = .ok () := by
    have hfits : ∀ header ∈ std.sort data₀, header.sourceSize.toNat ≤
        header.destinationSize.toNat :=
      fun header hmem => h.dataFits header (hdataMem header hmem).1
    refine validateDataHeaders_accepts hfits (dataChain_of_disjoint (addressOrder_sort std data₀)
      ?_ ?_ ?_)
    · exact fun header hmem =>
        (hnowrap header (List.mem_of_mem_filter (hdataMem header hmem).1)).destination
    · exact fun header hmem => size_pos_of_fits (hdataMem header hmem).2 (hfits header hmem)
    · refine (hdataPerm.pairwise_iff (fun {_ _} h => disjoint_symm.symm _ _ h)).mpr ?_
      rw [← hdata, disjoint_nonempty_iff]
      exact h.dataDisjoint
  have hvalidCode : validateCodeHeaders (sortHeadersBySegmentAddresses std code₀) = .ok () := by
    obtain ⟨size, hsize, -, htiles⟩ := h.codeTiles
    have hsizes : ∀ header ∈ std.sort code₀, header.destinationSize = header.sourceSize :=
      fun header hmem => h.codeExact header (hcodeMem header hmem).1
    have hsorted (i : Nat) : (std.sort code₀).countP (fun header =>
        decide ((destinationRange header).Contains i)) = if i < size then 1 else 0 := by
      rw [hcodePerm.countP_eq, ← hcode, countP_nonempty]
      exact htiles i
    obtain ⟨hchain, hfirst⟩ := codeChain_of_tiles (addressOrder_sort std code₀)
      (fun header hmem =>
        (hnowrap header (List.mem_of_mem_filter (hcodeMem header hmem).1)).destination)
      (fun header hmem => size_pos_of_fits (hcodeMem header hmem).2 (by
        rw [hsizes header hmem])) hsorted
    unfold sortHeadersBySegmentAddresses at hchain hfirst ⊢
    cases hcases : std.sort code₀ with
    | nil =>
      have hnone := hsorted 0
      rw [hcases, if_pos hsize] at hnone
      cases hnone
    | cons first rest =>
      rw [hcases] at hchain hfirst hsizes
      exact validateCodeHeaders_accepts (hfirst first rfl) hsizes hchain
  refine ⟨sortHeadersBySegmentAddresses std data₀, sortHeadersBySegmentAddresses std code₀, ?_⟩
  unfold readHeaders
  rw [hread, ok_bind, hkept, ok_bind]
  dsimp only
  rw [hvalidData, ok_bind, hvalidCode, ok_bind]
  rfl

theorem loadElf_accepts {Handler : Type} {emulator mapped loaded : Emulator Handler}
    (hheaders : readHeaders std native source = .ok (data, code))
    (hdata : mapDataSegments data source emulator = .ok mapped)
    (hcode : mapCodeSegments native code source mapped = .ok loaded) :
    loadElf std native source emulator = (.ok (), loaded) := by
  unfold loadElf
  rw [hheaders]
  dsimp only
  rw [hdata]
  dsimp only
  rw [hcode]

/-- What the accepted headers and the two mappings say of the file. -/
theorem loadable_iff (hwrap : field source 32 8 + 56 * field source 56 2 < 2 ^ 64)
    (hnowrap : ∀ header ∈ loadHeaders native source, NoWrap header)
    (hheaders : readHeaders std native source = .ok (data, code)) :
    Loadable native source memory ↔ totalSize data ≤ memory.getFreeSpace ∧
      totalSize code ≤ vectorMaxSize ∧ ∃ instructions,
        decodeInstructions native (code.flatMap (fileBytes source)) = .ok instructions := by
  have haccepted := readHeaders_ok hheaders
  have hinside := readHeaders_inside hheaders hnowrap
  obtain ⟨hwrapData, hwrapCode⟩ := haccepted.forall_load fun header hmem =>
    (hnowrap header hmem).destination
  have htotal := totalSize_data haccepted hwrapData
  have htiles := haccepted.code_tiles hwrapCode
  constructor
  · intro h
    obtain ⟨size, -, hlimit, hsized⟩ := h.codeTiles
    obtain ⟨program, instructions, hprogram, hdecode⟩ := h.decodes
    rw [haccepted.hasProgram_iff hwrapCode] at hprogram
    rw [htotal, tiles_unique htiles hsized, hprogram]
    exact ⟨h.room, hlimit, instructions, hdecode⟩
  · rintro ⟨hroom, hlimit, instructions, hdecode⟩
    obtain ⟨elfHeader, -, -, hread, -⟩ := readHeaders_cases hheaders
    have hempty {header : SegmentHeader} (h : ¬isEmpty header = false) :
        header.sourceSize = 0 ∧ header.destinationSize = 0 :=
      of_decide_eq_true ((Bool.not_eq_false _).mp h)
    constructor
    case header => exact (readElfHeader_accepts_iff hwrap).mp ⟨elfHeader, hread⟩
    case inside =>
      intro header hmem hnonempty
      rcases haccepted.load_cases hmem with hisEmpty | hdata | hcode
      · rw [hnonempty] at hisEmpty
        cases hisEmpty
      · exact hinside header (List.mem_append_left code hdata)
      · exact hinside header (List.mem_append_right data hcode)
    case dataFits =>
      intro header hmem
      by_cases hnonempty : isEmpty header = false
      · exact haccepted.dataFits header (haccepted.data_mem.mpr ⟨hmem, hnonempty⟩)
      · rw [(hempty hnonempty).1, (hempty hnonempty).2]
    case dataDisjoint => exact haccepted.data_disjoint hwrapData
    case codeExact =>
      intro header hmem
      by_cases hnonempty : isEmpty header = false
      · exact haccepted.codeSizes header (haccepted.code_mem.mpr ⟨hmem, hnonempty⟩)
      · rw [(hempty hnonempty).1, (hempty hnonempty).2]
    case codeTiles => exact ⟨_, haccepted.code_total_pos hwrapCode, hlimit, htiles⟩
    case decodes =>
      exact ⟨_, instructions, (haccepted.hasProgram_iff hwrapCode).mpr rfl, hdecode⟩
    case room =>
      rw [← htotal]
      exact hroom

/-- The accepted data segments are mapped if and only if there is room for them. -/
theorem mapDataSegments_readHeaders_iff {Handler : Type} {emulator : Emulator Handler}
    (hheaders : readHeaders std native source = .ok (data, code))
    (hnowrap : ∀ header ∈ loadHeaders native source, NoWrap header)
    (hplaced : Placed emulator.memory) :
    (∃ mapped, mapDataSegments data source emulator = .ok mapped) ↔
      totalSize data ≤ emulator.memory.getFreeSpace := by
  have haccepted := readHeaders_ok hheaders
  have hinside := readHeaders_inside hheaders hnowrap
  have hsound := destinationsSound_of_noWrap haccepted fun header hmem =>
    (hnowrap header hmem).destination
  refine mapDataSegments_accepts_iff hplaced
    (fun header hmem => hinside header (List.mem_append_left code hmem)) hsound.dataWrites ?_
  intro header hmem
  have hpos := haccepted.data_size_pos hmem
  have hstop := hsound.dataInside header hmem
  rw [destinationRange_stop] at hstop
  omega

end Load

/-- The loader accepts a file exactly when it is loadable into the emulator's memory. -/
theorem loadElf_accepts_iff {Handler : Type} (std : StdSort SegmentHeader.less) (native : Endian)
    (source : List Byte) (emulator : Emulator Handler) (hplaced : Placed emulator.memory)
    (hwrap : field source 32 8 + 56 * field source 56 2 < 2 ^ 64)
    (hnowrap : ∀ header ∈ loadHeaders native source, NoWrap header) :
    (loadElf std native source emulator).1 = .ok () ↔
      Loadable native source emulator.memory := by
  constructor
  · intro h
    obtain ⟨data, code, mapped, hheaders, hdata, hcode⟩ := loadElf_ok (Prod.ext h rfl)
    obtain ⟨hlimit, hdecodes⟩ := (mapCodeSegments_accepts_iff hheaders hnowrap).mp ⟨_, hcode⟩
    exact (loadable_iff hwrap hnowrap hheaders).mpr
      ⟨(mapDataSegments_readHeaders_iff hheaders hnowrap hplaced).mp ⟨mapped, hdata⟩, hlimit,
        hdecodes⟩
  · intro h
    obtain ⟨data, code, hheaders⟩ := @readHeaders_loadable native source std _ hwrap hnowrap h
    obtain ⟨hroom, hcodes⟩ := (loadable_iff hwrap hnowrap hheaders).mp h
    obtain ⟨mapped, hdata⟩ :=
      (mapDataSegments_readHeaders_iff hheaders hnowrap hplaced).mpr hroom
    obtain ⟨loaded, hcode⟩ := (mapCodeSegments_accepts_iff hheaders hnowrap).mpr hcodes
    rw [loadElf_accepts hheaders hdata hcode]

theorem placed_new (base capacity : Nat) (hbase : 0 < base) : Placed (Arena.new base capacity) :=
  fun _ => hbase

theorem loadElf_accepts_iff_padded :
    (loadElf insertionSort .little paddedFile (Emulator.new 4096 8 : Emulator Unit)).1 = .ok () ↔
      Loadable .little paddedFile (Emulator.new 4096 8 : Emulator Unit).memory :=
  loadElf_accepts_iff insertionSort .little paddedFile (Emulator.new 4096 8)
    (placed_new 4096 8 (by decide)) (by decide +kernel) noWrap_paddedFile

end RiscvEmulator.Guarantees
