import RiscvEmulator.Guarantees.ElfLink

/-!
# What a file loads to depends on its segments

The checks of the sorted headers say of the segments what can be said of them in any
order, and what is mapped is the segments in the one order they then have. So two files
with the same segments load alike, wherever the segments are in the file and in whatever
order the table lists them, and a file can be linked anew from its segments.
-/
namespace RiscvEmulator.Guarantees
open Source Spec Library.ByteBuffer Library.ExceptList Library.Ranges

variable {native : Endian} {source : List Byte}

/-- The loader reads the table of the file, whose offsets are exact, to its end. -/
structure Readable (native : Endian) (source : List Byte) : Prop where
  read : ∃ elfHeader, ElfHeader.read native source = .ok elfHeader ∧
    EntriesInside source elfHeader
  noWrap : ∀ header ∈ loadHeaders native source, NoWrap header
  inside : ∀ header ∈ loadHeaders native source, isEmpty header = false →
    header.sourceStart.toNat + header.sourceSize.toNat ≤ source.length

section Segments
variable {headers : List SegmentHeader} {header : SegmentHeader}

/-- The header's bytes are in the file. -/
def Present (source : List Byte) (header : SegmentHeader) : Prop :=
  isEmpty header = false ∧
    header.sourceStart.toNat + header.sourceSize.toNat ≤ source.length ∧
    (destinationRange header).stop < 2 ^ 64

theorem length_bytes (hpresent : Present source header) :
    (segmentOf source header).bytes.length = header.sourceSize.toNat :=
  length_fileBytes hpresent.2.1

theorem size_pos (hpresent : Present source header)
    (hfit : (segmentOf source header).bytes.length ≤ (segmentOf source header).size.toNat) :
    0 < header.destinationSize.toNat := by
  rw [length_bytes hpresent] at hfit
  exact size_pos_of_fits hpresent.1 hfit

/-- The loader's checks of sorted data headers, without the order. -/
theorem validateDataHeaders_eq (horder : AddressOrder headers)
    (hpresent : ∀ header ∈ headers, Present source header) :
    validateDataHeaders headers = checkData (headers.map (segmentOf source)) := by
  have hwrap : ∀ header ∈ headers, (destinationRange header).stop < 2 ^ 64 :=
    fun header hmem => (hpresent header hmem).2.2
  have htruncated : (headers.any fun header => decide (header.sourceSize >
      header.destinationSize)) = true ↔ ∃ segment ∈ headers.map (segmentOf source),
        segment.size.toNat < segment.bytes.length := by
    rw [List.any_eq_true]
    constructor
    · rintro ⟨header, hmem, hlarge⟩
      refine ⟨segmentOf source header, List.mem_map_of_mem hmem, ?_⟩
      rw [length_bytes (hpresent header hmem)]
      exact BitVec.lt_def.mp (of_decide_eq_true hlarge)
    · rintro ⟨segment, hsegment, hlarge⟩
      obtain ⟨header, hmem, rfl⟩ := List.mem_map.mp hsegment
      rw [length_bytes (hpresent header hmem)] at hlarge
      exact ⟨header, hmem, decide_eq_true (BitVec.lt_def.mpr hlarge)⟩
  unfold validateDataHeaders checkData
  by_cases hlarge : ∃ segment ∈ headers.map (segmentOf source),
      segment.size.toNat < segment.bytes.length
  · rw [if_pos (htruncated.mpr hlarge), if_pos hlarge]
  rw [if_neg (mt htruncated.mp hlarge), if_neg hlarge]
  have hpos : ∀ header ∈ headers, 0 < header.destinationSize.toNat := by
    intro header hmem
    apply size_pos (hpresent header hmem)
    by_contra hlong
    exact hlarge ⟨_, List.mem_map_of_mem hmem, not_le.mp hlong⟩
  have hneighbours : anyNeighbours (fun header next => decide (header.destinationEnd >
      next.destinationStart)) headers = false ↔
        NoOverlap (headers.map (segmentOf source)) := by
    unfold NoOverlap
    rw [List.pairwise_map]
    constructor
    · intro h
      have hchain : headers.IsChain fun a b => a.destinationEnd.toNat ≤ b.destinationStart.toNat :=
        (isChain_of_anyNeighbours h).imp fun a b hab =>
          not_lt.mp (of_decide_eq_false hab)
      have hpairs := Range.pairwise_disjoint (before_of_chain hchain hwrap)
      rw [List.pairwise_map] at hpairs
      exact hpairs
    · intro hdisjoint
      refine anyNeighbours_of_isChain ((dataChain_of_disjoint horder hwrap hpos hdisjoint).imp ?_)
      exact fun a b hab => decide_eq_false (not_lt.mpr hab)
  split
  · next h =>
    rw [if_pos]
    rw [← hneighbours, h]
    exact Bool.noConfusion
  · next h =>
    rw [if_neg]
    exact not_not.mpr (hneighbours.mp (Bool.eq_false_iff.mpr h))

/-- Ranges that adjoin from 0 on tile the places below where the last one ends. -/
theorem tiles_of_chain {first : SegmentHeader} (hzero : first.destinationStart = 0)
    (hchain : ((first :: headers).map destinationRange).IsChain Range.Adjoins) :
    ∃ size, ∀ i, (first :: headers).countP (fun header =>
      decide ((destinationRange header).Contains i)) = if i < size then 1 else 0 := by
  obtain ⟨last, hlast⟩ : ∃ last, (first :: headers).getLast? = some last :=
    ⟨_, List.getLast?_eq_some_getLast (List.cons_ne_nil first headers)⟩
  have hstart : (destinationRange first).start = 0 := by
    rw [destinationRange_start, hzero]
    rfl
  refine ⟨(destinationRange last).stop, fun i => ?_⟩
  have hcount := Range.countP_contains hchain (getLast?_destinationRange hlast) i
  rw [← List.map_cons, List.countP_map, hstart] at hcount
  exact hcount.trans (if_congr (and_iff_right (Nat.zero_le i)) rfl rfl)

/-- The loader's checks of sorted code headers, without the order. -/
theorem validateCodeHeaders_eq (horder : AddressOrder headers)
    (hpresent : ∀ header ∈ headers, Present source header) :
    validateCodeHeaders headers = checkCode (headers.map (segmentOf source)) := by
  cases headers with
  | nil =>
    unfold checkCode
    rw [List.map_nil, if_pos rfl]
    rfl
  | cons first rest =>
    have hwrap : ∀ header ∈ first :: rest, (destinationRange header).stop < 2 ^ 64 :=
      fun header hmem => (hpresent header hmem).2.2
    have hne : (first :: rest).map (segmentOf source) ≠ [] := List.cons_ne_nil _ _
    have hpadded : ((first :: rest).any fun header => header.destinationSize !=
        header.sourceSize) = true ↔ ∃ segment ∈ (first :: rest).map (segmentOf source),
          segment.size.toNat ≠ segment.bytes.length := by
      rw [List.any_eq_true]
      constructor
      · rintro ⟨header, hmem, hdiffers⟩
        refine ⟨segmentOf source header, List.mem_map_of_mem hmem, ?_⟩
        rw [length_bytes (hpresent header hmem)]
        exact fun hsame => bne_iff_ne.mp hdiffers (BitVec.eq_of_toNat_eq hsame)
      · rintro ⟨segment, hsegment, hdiffers⟩
        obtain ⟨header, hmem, rfl⟩ := List.mem_map.mp hsegment
        rw [length_bytes (hpresent header hmem)] at hdiffers
        exact ⟨header, hmem, bne_iff_ne.mpr fun hsame => hdiffers (congrArg BitVec.toNat hsame)⟩
    -- The first of the sorted headers starts lowest, so it starts at 0 if any does.
    have hstart : first.destinationStart ≠ 0 ↔
        ∀ segment ∈ (first :: rest).map (segmentOf source), segment.start ≠ 0 := by
      constructor
      · intro hfirst segment hsegment hzero
        obtain ⟨header, hmem, rfl⟩ := List.mem_map.mp hsegment
        rcases List.mem_cons.mp hmem with rfl | hmem
        · exact hfirst hzero
        · have hle := (List.pairwise_cons.mp horder).1 header hmem
          have hlow : header.destinationStart.toNat = 0 := congrArg BitVec.toNat hzero
          exact hfirst (BitVec.eq_of_toNat_eq (by rw [hlow] at hle; exact Nat.le_zero.mp hle))
      · exact fun h => h (segmentOf source first) List.mem_cons_self
    unfold checkCode
    unfold validateCodeHeaders
    dsimp only
    rw [if_neg hne]
    by_cases hdiffers : ∃ segment ∈ (first :: rest).map (segmentOf source),
        segment.size.toNat ≠ segment.bytes.length
    · rw [if_pos (hpadded.mpr hdiffers), if_pos hdiffers]
    rw [if_neg (mt hpadded.mp hdiffers), if_neg hdiffers]
    by_cases hzero : first.destinationStart = 0
    case neg => rw [if_pos hzero, if_pos (hstart.mp hzero)]
    rw [if_neg (not_not.mpr hzero), if_neg (mt hstart.mpr (not_not.mpr hzero))]
    have hpos : ∀ header ∈ first :: rest, 0 < header.destinationSize.toNat := by
      intro header hmem
      apply size_pos (hpresent header hmem)
      by_contra hlong
      exact hdiffers ⟨_, List.mem_map_of_mem hmem, by omega⟩
    have hneighbours : anyNeighbours (fun header next => header.destinationEnd !=
        next.destinationStart) (first :: rest) = false ↔
          Tiles ((first :: rest).map (segmentOf source)) := by
      simp only [Tiles, List.countP_map]
      constructor
      · intro h
        apply tiles_of_chain hzero
        apply adjoins_of_chain _ hwrap
        exact (isChain_of_anyNeighbours h).imp fun a b hab => eq_of_beq (by simpa [bne] using hab)
      · rintro ⟨size, htiles⟩
        refine anyNeighbours_of_isChain
          ((codeChain_of_tiles horder hwrap hpos htiles).1.imp fun a b hab => ?_)
        simp [hab]
    split
    · next h =>
      rw [if_pos]
      rw [← hneighbours, h]
      exact Bool.noConfusion
    · next h =>
      rw [if_neg]
      exact not_not.mpr (hneighbours.mp (Bool.eq_false_iff.mpr h))

end Segments

section Order
variable {data data' code code' : List Segment}

theorem checkData_perm (h : data'.Perm data) : checkData data' = checkData data := by
  classical
  have hdisjoint : NoOverlap data' ↔ NoOverlap data :=
    h.pairwise_iff fun {_ _} hab i hi => hab i hi.symm
  simp only [checkData, h.mem_iff, hdisjoint]

theorem checkCode_perm (h : code'.Perm code) : checkCode code' = checkCode code := by
  classical
  have hnil : code' = [] ↔ code = [] := by
    rw [← List.length_eq_zero_iff, h.length_eq, List.length_eq_zero_iff]
  have htiles : Tiles code' ↔ Tiles code := by
    simp only [Tiles, h.countP_eq]
  simp only [checkCode, hnil, h.mem_iff, htiles]

/-- Segments with different starts have one order. -/
theorem sorted_unique (h : data'.Perm data)
    (hsorted : data.Pairwise fun a b => a.start.toNat < b.start.toNat)
    (hsorted' : data'.Pairwise fun a b => a.start.toNat < b.start.toNat) : data' = data :=
  h.eq_of_pairwise (fun _ _ _ _ hab hba => absurd hab (Nat.lt_asymm hba)) hsorted' hsorted

end Order

section Mapping
variable {Handler : Type} {source' : List Byte} {headers headers' : List SegmentHeader}

/-- Two lists of headers that stand for the same segments, each in its own file. -/
structure SameSegments (source source' : List Byte) (headers headers' : List SegmentHeader) :
    Prop where
  segments : headers'.map (segmentOf source') = headers.map (segmentOf source)
  present : ∀ header ∈ headers, Present source header
  present' : ∀ header ∈ headers', Present source' header

theorem SameSegments.copySegments (h : SameSegments source source' headers headers')
    (origin : Nat) (buffer : List Byte) :
    Source.copySegments source' origin headers' buffer =
      Source.copySegments source origin headers buffer := by
  induction headers generalizing headers' buffer with
  | nil =>
    obtain rfl := List.map_eq_nil_iff.mp h.segments
    rfl
  | cons header headers ih =>
    obtain ⟨header', headers', rfl, hsame, hrest⟩ := List.map_eq_cons_iff.mp h.segments
    obtain ⟨hpresent, hpresents⟩ := List.forall_mem_cons.mp h.present
    obtain ⟨hpresent', hpresents'⟩ := List.forall_mem_cons.mp h.present'
    have hstart : header'.destinationStart = header.destinationStart :=
      congrArg Segment.start hsame
    have hbytes : fileBytes source' header' = fileBytes source header :=
      congrArg Segment.bytes hsame
    have hread : readAt source' header'.sourceStart.toNat header'.sourceSize.toNat =
        some (fileBytes source header) := (readAt_of_le hpresent'.2.1).trans (congrArg some hbytes)
    have hread' : readAt source header.sourceStart.toNat header.sourceSize.toNat =
        some (fileBytes source header) := readAt_of_le hpresent.2.1
    unfold Source.copySegments
    rw [hread, hread', hstart]
    dsimp only
    split
    · rfl
    · next written hwrite => exact ih ⟨hrest, hpresents, hpresents'⟩ written

/-- The last headers of both lists end at the same place. -/
theorem SameSegments.getLast? (h : SameSegments source source' headers headers') :
    headers'.getLast?.map SegmentHeader.destinationEnd =
      headers.getLast?.map SegmentHeader.destinationEnd := by
  have hends (file : List Byte) (header : Option SegmentHeader) :
      header.map SegmentHeader.destinationEnd =
        (header.map (segmentOf file)).map fun segment => segment.start + segment.size := by
    rw [Option.map_map]
    rfl
  have hlast := congrArg List.getLast? h.segments
  rw [List.getLast?_map, List.getLast?_map] at hlast
  rw [hends source', hends source, hlast]

theorem SameSegments.mapDataSegments (h : SameSegments source source' headers headers')
    (emulator : Emulator Handler) :
    Source.mapDataSegments headers' source' emulator =
      Source.mapDataSegments headers source emulator := by
  have hlast := h.getLast?
  have harena (arena : Arena) (origin : Nat) :
      arena.copySegments source' origin headers' = arena.copySegments source origin headers := by
    have hcopy := h.copySegments origin arena.storage
    unfold Arena.copySegments
    split
    · next storage hok =>
      rw [hcopy] at hok
      split
      · next storage' hok' =>
        obtain rfl := Except.ok.inj (hok.symm.trans hok')
        rfl
      · next e herror => cases hok.symm.trans herror
    · next e herror =>
      rw [hcopy] at herror
      split
      · next storage hok => cases herror.symm.trans hok
      · next e' herror' => rw [Except.error.inj (herror.symm.trans herror')]
  unfold Source.mapDataSegments
  cases hheaders : headers.getLast? with
  | none =>
    rw [hheaders, Option.map_none, Option.map_eq_none_iff] at hlast
    rw [hlast]
  | some last =>
    rw [hheaders, Option.map_some, Option.map_eq_some_iff] at hlast
    obtain ⟨last', hlast', hend⟩ := hlast
    rw [hlast']
    simp only [hend, harena]

theorem SameSegments.mapCodeSegments (h : SameSegments source source' headers headers')
    (emulator : Emulator Handler) :
    Source.mapCodeSegments native headers' source' emulator =
      Source.mapCodeSegments native headers source emulator := by
  have hlast := h.getLast?
  unfold Source.mapCodeSegments
  cases hheaders : headers.getLast? with
  | none =>
    rw [hheaders, Option.map_none, Option.map_eq_none_iff] at hlast
    rw [hlast]
  | some last =>
    rw [hheaders, Option.map_some, Option.map_eq_some_iff] at hlast
    obtain ⟨last', hlast', hend⟩ := hlast
    rw [hlast']
    simp only [hend, h.copySegments]

end Mapping

section Files
variable {source' : List Byte}

theorem Readable.present (h : Readable native source) {kind : SegmentHeader → Bool}
    {header : SegmentHeader} (hmem : header ∈ ((loadHeaders native source).filter kind).filter
      fun header => !isEmpty header) : Present source header := by
  obtain ⟨hkind, hempty⟩ := List.mem_filter.mp hmem
  have hload := List.mem_of_mem_filter hkind
  have hnonempty := (Bool.not_eq_true' _).mp hempty
  exact ⟨hnonempty, h.inside header hload hnonempty, (h.noWrap header hload).destination⟩

/-- Both files hold the segments that are in one of them. -/
structure SameFiles (native : Endian) (source source' : List Byte) : Prop where
  readable : Readable native source
  readable' : Readable native source'
  kept : ∀ executable, (kept executable (segmentsOf native source')).Perm
    (kept executable (segmentsOf native source))

theorem SameFiles.keptHeaders_perm (h : SameFiles native source source') (executable : Bool) :
    ((keptHeaders native executable source').map (segmentOf source')).Perm
      ((keptHeaders native executable source).map (segmentOf source)) := by
  have hkept := h.kept executable
  rw [kept_segmentsOf h.readable.inside, kept_segmentsOf h.readable'.inside] at hkept
  exact hkept

section Sorted
variable {std std' : StdSort SegmentHeader.less} {executable : Bool}

/-- The kept headers as the loader sorts them. -/
def sortedHeaders (std : StdSort SegmentHeader.less) (native : Endian) (executable : Bool)
    (source : List Byte) : List SegmentHeader :=
  sortHeadersBySegmentAddresses std (keptHeaders native executable source)

theorem order_sorted : AddressOrder (sortedHeaders std native executable source) :=
  addressOrder_sort std _

theorem present_sorted (h : Readable native source) :
    ∀ header ∈ sortedHeaders std native executable source, Present source header :=
  fun _ hmem => h.present ((std.perm _).mem_iff.mp hmem)

theorem SameFiles.sorted_perm (h : SameFiles native source source') :
    ((sortedHeaders std' native executable source').map (segmentOf source')).Perm
      ((sortedHeaders std native executable source).map (segmentOf source)) :=
  ((std'.perm _).map _).trans ((h.keptHeaders_perm executable).trans ((std.perm _).map _).symm)

theorem SameFiles.validateData_eq (h : SameFiles native source source') :
    validateDataHeaders (sortedHeaders std' native executable source') =
      validateDataHeaders (sortedHeaders std native executable source) := by
  rw [validateDataHeaders_eq order_sorted (present_sorted h.readable'),
    validateDataHeaders_eq order_sorted (present_sorted h.readable)]
  exact checkData_perm h.sorted_perm

theorem SameFiles.validateCode_eq (h : SameFiles native source source') :
    validateCodeHeaders (sortedHeaders std' native executable source') =
      validateCodeHeaders (sortedHeaders std native executable source) := by
  rw [validateCodeHeaders_eq order_sorted (present_sorted h.readable'),
    validateCodeHeaders_eq order_sorted (present_sorted h.readable)]
  exact checkCode_perm h.sorted_perm

/-- Sorted headers with different starts stand for the same segments in the same order. -/
theorem SameFiles.sameSegments (h : SameFiles native source source')
    (hstarts : (sortedHeaders std native executable source).Pairwise fun a b =>
      a.destinationStart.toNat < b.destinationStart.toNat)
    (hstarts' : (sortedHeaders std' native executable source').Pairwise fun a b =>
      a.destinationStart.toNat < b.destinationStart.toNat) :
    SameSegments source source' (sortedHeaders std native executable source)
      (sortedHeaders std' native executable source') where
  segments := sorted_unique h.sorted_perm (List.pairwise_map.mpr hstarts)
    (List.pairwise_map.mpr hstarts')
  present := present_sorted h.readable
  present' := present_sorted h.readable'

theorem readHeaders_readable (h : Readable native source) (std : StdSort SegmentHeader.less) :
    readHeaders std native source = (do
      validateDataHeaders (sortedHeaders std native false source)
      validateCodeHeaders (sortedHeaders std native true source)
      return (sortedHeaders std native false source, sortedHeaders std native true source)) := by
  obtain ⟨elfHeader, hread, htable⟩ := h.read
  have hkept := readSegmentHeaders_keptHeaders hread htable
    (fun header hmem => (h.noWrap header hmem).source) h.inside
  unfold readHeaders
  rw [hread, ok_bind, hkept, ok_bind]
  rfl

theorem starts_of_readHeaders (h : Readable native source) {data code : List SegmentHeader}
    (hheaders : readHeaders std native source = .ok (data, code)) :
    (data.Pairwise fun a b => a.destinationStart.toNat < b.destinationStart.toNat) ∧
      code.Pairwise fun a b => a.destinationStart.toNat < b.destinationStart.toNat := by
  have haccepted := readHeaders_ok hheaders
  obtain ⟨hwrapData, hwrapCode⟩ := haccepted.forall_load fun header hmem =>
    (h.noWrap header hmem).destination
  exact ⟨haccepted.data_starts hwrapData, haccepted.code_starts hwrapCode⟩

/-- Files with the same segments load alike, whether they are accepted or rejected. -/
theorem SameFiles.loadElf_eq {Handler : Type} (h : SameFiles native source source')
    (emulator : Emulator Handler) :
    loadElf std' native source' emulator = loadElf std native source emulator := by
  have hread := readHeaders_readable h.readable std
  have hread' := readHeaders_readable h.readable' std'
  rw [@SameFiles.validateData_eq native source source' std std' false h,
    @SameFiles.validateCode_eq native source source' std std' true h] at hread'
  unfold loadElf
  cases hdata : validateDataHeaders (sortedHeaders std native false source) with
  | error e =>
    rw [hdata] at hread hread'
    rw [hread, hread']
    rfl
  | ok =>
    cases hcode : validateCodeHeaders (sortedHeaders std native true source) with
    | error e =>
      rw [hdata, hcode] at hread hread'
      rw [hread, hread']
      rfl
    | ok =>
      rw [hdata, hcode] at hread hread'
      obtain ⟨hdataStarts, hcodeStarts⟩ := starts_of_readHeaders h.readable hread
      obtain ⟨hdataStarts', hcodeStarts'⟩ := starts_of_readHeaders h.readable' hread'
      have hsameData := h.sameSegments hdataStarts hdataStarts'
      have hsameCode := h.sameSegments hcodeStarts hcodeStarts'
      rw [hread, hread']
      simp only [ok_bind, pure, Except.pure, hsameData.mapDataSegments,
        hsameCode.mapCodeSegments]

end Sorted

end Files

section Relink
variable {parts : List Segment}

/-- The loader can read a linked file whose segments end below `2 ^ 64`. -/
theorem readable_link (hcount : parts.length < 2 ^ 16) (hfile : (link parts).length < 2 ^ 64)
    (hstops : ∀ part ∈ parts, part.range.stop < 2 ^ 64) : Readable native (link parts) := by
  constructor
  case read => exact readElfHeader_link hcount
  case noWrap =>
    intro header hmem
    have hend := sourceEnd_link hcount hfile header hmem
    obtain ⟨part, hpart, start, rfl, -⟩ := mem_loadHeaders_link hcount hfile hmem
    exact ⟨by omega, hstops part hpart⟩
  case inside => exact fun header hmem _ => sourceEnd_link hcount hfile header hmem

theorem readable_of_header (hheader : ExecutableHeader source)
    (hwrap : field source 32 8 + 56 * field source 56 2 < 2 ^ 64)
    (hnowrap : ∀ header ∈ loadHeaders native source, NoWrap header)
    (hinside : ∀ header ∈ loadHeaders native source, isEmpty header = false →
      header.sourceStart.toNat + header.sourceSize.toNat ≤ source.length) :
    Readable native source := by
  obtain ⟨elfHeader, hread⟩ := (@readElfHeader_accepts_iff native source hwrap).mpr hheader
  exact ⟨⟨elfHeader, hread, entriesInside_of_read hread hwrap⟩, hnowrap, hinside⟩

/-- A program header table has less than `2 ^ 16` entries. -/
theorem length_segmentsOf (native : Endian) (source : List Byte) :
    (segmentsOf native source).length < 2 ^ 16 := by
  have hload : (loadHeaders native source).length ≤ (programHeaders native source).length :=
    List.length_filter_le ..
  have hprogram : (programHeaders native source).length < 2 ^ 16 := by
    unfold programHeaders
    split
    · exact Nat.two_pow_pos 16
    · next elfHeader hread =>
      have hcount := elfHeader.programHeaderEntryCount.isLt
      have hlength := List.length_filterMap_le (fun i => (SegmentHeader.read native source
        (entryOffset elfHeader i)).toOption) (List.range elfHeader.programHeaderEntryCount.toNat)
      rw [List.length_range] at hlength
      omega
  rw [segmentsOf, List.length_map]
  omega

end Relink

/-- A file linked anew from its segments, in any order, loads as the file itself does. -/
theorem loadElf_link {Handler : Type} (std std' : StdSort SegmentHeader.less) (native : Endian)
    (source : List Byte) (parts : List Segment) (emulator : Emulator Handler)
    (hheader : ExecutableHeader source)
    (hwrap : field source 32 8 + 56 * field source 56 2 < 2 ^ 64)
    (hnowrap : ∀ header ∈ loadHeaders native source, NoWrap header)
    (hinside : ∀ header ∈ loadHeaders native source, isEmpty header = false →
      header.sourceStart.toNat + header.sourceSize.toNat ≤ source.length)
    (hparts : parts.Perm (segmentsOf native source)) (hfile : (link parts).length < 2 ^ 64) :
    loadElf std' native (link parts) emulator = loadElf std native source emulator := by
  have hcount : parts.length < 2 ^ 16 := by
    rw [hparts.length_eq]
    exact length_segmentsOf native source
  have hstops : ∀ part ∈ parts, part.range.stop < 2 ^ 64 := by
    intro part hmem
    obtain ⟨header, hload, rfl⟩ := List.mem_map.mp (hparts.mem_iff.mp hmem)
    exact (hnowrap header hload).destination
  have hfiles : SameFiles native source (link parts) := by
    constructor
    case readable => exact readable_of_header hheader hwrap hnowrap hinside
    case readable' => exact readable_link hcount hfile hstops
    case kept =>
      intro executable
      rw [segmentsOf_link hcount hfile]
      exact hparts.filter _
  exact hfiles.loadElf_eq emulator

theorem loadElf_link_padded :
    loadElf insertionSort .little (link (segmentsOf .little paddedFile).reverse)
        (Emulator.new 4096 8 : Emulator Unit) =
      loadElf insertionSort .little paddedFile (Emulator.new 4096 8 : Emulator Unit) :=
  loadElf_link insertionSort insertionSort .little paddedFile _ (Emulator.new 4096 8)
    (executableHeader_elfFile (by decide)) (by decide +kernel) noWrap_paddedFile
    (by decide +kernel) (List.reverse_perm _) (by decide +kernel)

end RiscvEmulator.Guarantees
