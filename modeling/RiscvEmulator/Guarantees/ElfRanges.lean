import RiscvEmulator.Guarantees.ElfHeaders
import RiscvEmulator.Spec.ElfFile

/-!
# The destination ranges of an accepted ELF file

The validators compare ends computed modulo `2 ^ 64`. While no end wraps, comparing
neighbours is enough: the data ranges are disjoint, the code ranges tile the code memory
and every copy lands in its buffer. An end that wraps looks small to the validators and
to the allocation, and the range it belongs to lies outside the buffer.
-/
namespace RiscvEmulator.Guarantees
open Source Spec Library.Ranges

section Ranges
variable {headers : List SegmentHeader}

theorem destinationEnd_toNat {header : SegmentHeader}
    (hwrap : (destinationRange header).stop < 2 ^ 64) :
    header.destinationEnd.toNat = (destinationRange header).stop := by
  unfold SegmentHeader.destinationEnd
  rw [BitVec.toNat_add]
  exact Nat.mod_eq_of_lt hwrap

theorem before_of_chain
    (hchain : headers.IsChain fun a b => a.destinationEnd.toNat ≤ b.destinationStart.toNat)
    (hwrap : ∀ header ∈ headers, (destinationRange header).stop < 2 ^ 64) :
    (headers.map destinationRange).IsChain Range.Before := by
  rw [List.isChain_map]
  refine hchain.imp_of_mem_imp fun a b ha _ hab => ?_
  rw [destinationEnd_toNat (hwrap a ha)] at hab
  exact hab

theorem adjoins_of_chain
    (hchain : headers.IsChain fun a b => a.destinationEnd = b.destinationStart)
    (hwrap : ∀ header ∈ headers, (destinationRange header).stop < 2 ^ 64) :
    (headers.map destinationRange).IsChain Range.Adjoins := by
  rw [List.isChain_map]
  refine hchain.imp_of_mem_imp fun a b ha _ hab => ?_
  have hstop := destinationEnd_toNat (hwrap a ha)
  rw [hab] at hstop
  exact hstop.symm

theorem totalSize_lt (headers : List SegmentHeader) : totalSize headers < 2 ^ 64 := by
  unfold totalSize
  split
  · exact Nat.two_pow_pos 64
  · exact BitVec.isLt _

theorem totalSize_eq {last : SegmentHeader} (hlast : headers.getLast? = some last) :
    totalSize headers = last.destinationEnd.toNat := by
  unfold totalSize
  rw [hlast]

theorem getLast?_destinationRange {last : SegmentHeader} (hlast : headers.getLast? = some last) :
    (headers.map destinationRange).getLast? = some (destinationRange last) := by
  rw [List.getLast?_map, hlast, Option.map_some]

theorem totalSize_of_getLast? {last : SegmentHeader} (hlast : headers.getLast? = some last)
    (hwrap : (destinationRange last).stop < 2 ^ 64) :
    totalSize headers = (destinationRange last).stop :=
  (totalSize_eq hlast).trans (destinationEnd_toNat hwrap)

/-- The buffer ends where the last of the ranges does, which is behind all of them. -/
theorem stop_le_totalSize (hchain : (headers.map destinationRange).IsChain Range.Before)
    (hwrap : ∀ header ∈ headers, (destinationRange header).stop < 2 ^ 64) :
    ∀ header ∈ headers, (destinationRange header).stop ≤ totalSize headers := by
  intro header hmem
  cases hlast : headers.getLast? with
  | none =>
    rw [List.getLast?_eq_none_iff.mp hlast] at hmem
    cases hmem
  | some last =>
    rw [totalSize_of_getLast? hlast (hwrap last (List.mem_of_getLast? hlast))]
    exact Range.stop_le_last hchain (getLast?_destinationRange hlast) _ (List.mem_map_of_mem hmem)

end Ranges

section Accepted
variable {native : Endian} {source : List Byte} {data code : List SegmentHeader}

theorem AcceptedHeaders.data_mem (haccepted : AcceptedHeaders native source data code)
    {header : SegmentHeader} :
    header ∈ data ↔ header ∈ dataHeaders native source ∧ isEmpty header = false := by
  rw [haccepted.dataPerm.mem_iff, List.mem_filter, Bool.not_eq_true']

theorem AcceptedHeaders.code_mem (haccepted : AcceptedHeaders native source data code)
    {header : SegmentHeader} :
    header ∈ code ↔ header ∈ codeHeaders native source ∧ isEmpty header = false := by
  rw [haccepted.codePerm.mem_iff, List.mem_filter, Bool.not_eq_true']

/-- A PT_LOAD entry is empty, or it is a data or a code segment. -/
theorem AcceptedHeaders.load_cases (haccepted : AcceptedHeaders native source data code)
    {header : SegmentHeader} (hmem : header ∈ loadHeaders native source) :
    isEmpty header = true ∨ header ∈ data ∨ header ∈ code := by
  rw [haccepted.data_mem, haccepted.code_mem]
  unfold dataHeaders codeHeaders
  rw [List.mem_filter, List.mem_filter]
  cases isEmpty header with
  | true => exact .inl rfl
  | false =>
    cases isExecutable header with
    | true => exact .inr (.inr ⟨⟨hmem, rfl⟩, rfl⟩)
    | false => exact .inr (.inl ⟨⟨hmem, rfl⟩, rfl⟩)

theorem AcceptedHeaders.data_load (haccepted : AcceptedHeaders native source data code)
    {header : SegmentHeader} (hmem : header ∈ data) : header ∈ loadHeaders native source :=
  List.mem_of_mem_filter (haccepted.data_mem.mp hmem).1

theorem AcceptedHeaders.code_load (haccepted : AcceptedHeaders native source data code)
    {header : SegmentHeader} (hmem : header ∈ code) : header ∈ loadHeaders native source :=
  List.mem_of_mem_filter (haccepted.code_mem.mp hmem).1

theorem AcceptedHeaders.load (haccepted : AcceptedHeaders native source data code)
    {header : SegmentHeader} (hmem : header ∈ data ++ code) :
    header ∈ loadHeaders native source := by
  rcases List.mem_append.mp hmem with hdata | hcode
  · exact haccepted.data_load hdata
  · exact haccepted.code_load hcode

/-- What holds of every PT_LOAD entry holds of the data and of the code segments. -/
theorem AcceptedHeaders.forall_load (haccepted : AcceptedHeaders native source data code)
    {p : SegmentHeader → Prop} (h : ∀ header ∈ loadHeaders native source, p header) :
    (∀ header ∈ data, p header) ∧ ∀ header ∈ code, p header :=
  ⟨fun header hmem => h header (haccepted.data_load hmem),
    fun header hmem => h header (haccepted.code_load hmem)⟩

/-- A data segment is not empty in the guest's address space. -/
theorem AcceptedHeaders.data_size_pos (haccepted : AcceptedHeaders native source data code)
    {header : SegmentHeader} (hmem : header ∈ data) : 0 < header.destinationSize.toNat := by
  have hnonempty := of_decide_eq_false (haccepted.data_mem.mp hmem).2
  have hfit := haccepted.dataFits header hmem
  refine Nat.pos_of_ne_zero fun hzero => hnonempty ?_
  have hsource : header.sourceSize.toNat = 0 := by omega
  exact ⟨BitVec.eq_of_toNat_eq hsource, BitVec.eq_of_toNat_eq hzero⟩

/-- A code segment is not empty in the guest's address space. -/
theorem AcceptedHeaders.code_size_pos (haccepted : AcceptedHeaders native source data code)
    {header : SegmentHeader} (hmem : header ∈ code) : 0 < header.destinationSize.toNat := by
  have hnonempty := of_decide_eq_false (haccepted.code_mem.mp hmem).2
  have hsizes := haccepted.codeSizes header hmem
  refine Nat.pos_of_ne_zero fun hzero => hnonempty ?_
  have hsize : header.destinationSize = 0 := BitVec.eq_of_toNat_eq hzero
  exact ⟨hsizes.symm.trans hsize, hsize⟩

theorem codeTiles_of_chain (haccepted : AcceptedHeaders native source data code)
    (hwrap : ∀ header ∈ code, (destinationRange header).stop < 2 ^ 64) (i : Nat) :
    code.countP (fun header => decide ((destinationRange header).Contains i)) =
      if i < totalSize code then 1 else 0 := by
  have hchain := adjoins_of_chain haccepted.codeChain hwrap
  obtain ⟨first, rest, rfl, hzero⟩ := haccepted.codeFirst
  obtain ⟨last, hlast⟩ : ∃ last, (first :: rest).getLast? = some last :=
    ⟨_, List.getLast?_eq_some_getLast (List.cons_ne_nil first rest)⟩
  have hcount := Range.countP_contains hchain (getLast?_destinationRange hlast) i
  rw [← List.map_cons, List.countP_map] at hcount
  rw [totalSize_of_getLast? hlast (hwrap last (List.mem_of_getLast? hlast))]
  refine hcount.trans (if_congr ?_ rfl rfl)
  have hstart : (destinationRange first).start = 0 := by
    rw [destinationRange_start, hzero]
    rfl
  rw [hstart]
  exact and_iff_right (Nat.zero_le i)

theorem destinationsSound_of_noWrap (haccepted : AcceptedHeaders native source data code)
    (hwrap : ∀ header ∈ loadHeaders native source, (destinationRange header).stop < 2 ^ 64) :
    DestinationsSound data code := by
  obtain ⟨hwrapData, hwrapCode⟩ := haccepted.forall_load hwrap
  have hdata := before_of_chain haccepted.dataChain hwrapData
  have hcode := (adjoins_of_chain haccepted.codeChain hwrapCode).imp
    fun _ _ => Range.Adjoins.before
  have hdataStop := stop_le_totalSize hdata hwrapData
  have hcodeStop := stop_le_totalSize hcode hwrapCode
  exact {
    dataDisjoint := List.pairwise_map.mp (Range.pairwise_disjoint hdata)
    dataInside := hdataStop
    codeTiles := codeTiles_of_chain haccepted hwrapCode
    dataWrites := fun header hmem =>
      (Nat.add_le_add_left (haccepted.dataFits header hmem) _).trans (hdataStop header hmem)
    codeWrites := fun header hmem => by
      rw [← haccepted.codeSizes header hmem]
      exact hcodeStop header hmem }

/-- The last byte of a range that wraps is not a byte of the buffer. -/
theorem noWrap_of_destinationsSound (haccepted : AcceptedHeaders native source data code)
    (hsound : DestinationsSound data code) {header : SegmentHeader}
    (hmem : header ∈ loadHeaders native source) : (destinationRange header).stop < 2 ^ 64 := by
  rcases haccepted.load_cases hmem with hempty | hdata | hcode
  · have hsize : header.destinationSize = 0 := (of_decide_eq_true hempty).2
    rw [destinationRange_stop, hsize]
    exact header.destinationStart.isLt
  · exact (hsound.dataInside header hdata).trans_lt (totalSize_lt data)
  · by_contra hlarge
    have htotal := totalSize_lt code
    have hpos := haccepted.code_size_pos hcode
    have hcount := hsound.codeTiles ((destinationRange header).stop - 1)
    rw [if_neg (by omega)] at hcount
    refine List.countP_eq_zero.mp hcount header hcode (decide_eq_true ?_)
    unfold Range.Contains
    rw [destinationRange_stop] at hlarge ⊢
    rw [destinationRange_start]
    omega

end Accepted

/-- The destination ranges of an accepted file are sound exactly when no PT_LOAD entry
reaches the end of the 64-bit address space. -/
theorem destinationsSound_iff {std : StdSort SegmentHeader.less} {native : Endian}
    {source : List Byte} {data code : List SegmentHeader}
    (h : readHeaders std native source = .ok (data, code)) :
    DestinationsSound data code ↔ ∀ header ∈ loadHeaders native source,
      header.destinationStart.toNat + header.destinationSize.toNat < 2 ^ 64 :=
  ⟨fun hsound _ hmem => noWrap_of_destinationsSound (readHeaders_ok h) hsound hmem,
    destinationsSound_of_noWrap (readHeaders_ok h)⟩

/-- Four bytes of code at 0. -/
def codeSegment (sourceStart : BitVec 64) : SegmentHeader :=
  { type := 1, flags := 5, sourceStart, sourceSize := 4, destinationSize := 4 }

/-- Two bytes of data at 2, padded with two zeros. -/
def paddedSegment : SegmentHeader :=
  { type := 1, flags := 6, sourceStart := 180, destinationStart := 2, sourceSize := 2,
    destinationSize := 4 }

def paddedFile : List Byte :=
  elfFile [codeSegment 176, paddedSegment] [0x13, 0, 0, 0, 0xaa, 0xbb]

theorem loadHeaders_paddedFile :
    loadHeaders .little paddedFile = [codeSegment 176, paddedSegment] := by decide +kernel

theorem readHeaders_paddedFile :
    readHeaders insertionSort .little paddedFile =
      .ok ([paddedSegment], [codeSegment 176]) := by decide +kernel

theorem destinationsSound_iff_padded :
    DestinationsSound [paddedSegment] [codeSegment 176] ↔
      ∀ header ∈ loadHeaders .little paddedFile,
        header.destinationStart.toNat + header.destinationSize.toNat < 2 ^ 64 :=
  destinationsSound_iff readHeaders_paddedFile

/-- Two bytes, the second one past the end of the address space. -/
def wrappedSegment : SegmentHeader :=
  { type := 1, flags := 6, sourceStart := 176, destinationStart := -1, sourceSize := 1,
    destinationSize := 2 }

/-- The validators accept a data segment whose range wraps. -/
theorem not_destinationsSound_wrapped :
    ¬∀ (std : StdSort SegmentHeader.less) (native : Endian) (source : List Byte)
      (data code : List SegmentHeader), readHeaders std native source = .ok (data, code) →
        DestinationsSound data code := by
  intro h
  have hread : readHeaders insertionSort .little
      (elfFile [codeSegment 176, wrappedSegment] [0x13, 0, 0, 0]) =
        .ok ([wrappedSegment], [codeSegment 176]) := by decide +kernel
  have hsound := h _ _ _ _ _ hread
  have hinside := hsound.dataInside wrappedSegment List.mem_cons_self
  exact absurd hinside (by decide)

end RiscvEmulator.Guarantees
