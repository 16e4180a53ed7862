import RiscvEmulator.Guarantees.DisplacedTransfers
import RiscvEmulator.Guarantees.ElfRelink
import RiscvEmulator.Guarantees.IntegerRoundTrip

/-!
# From a program to its run

Instructions and data are assembled, linked into a file and loaded, and the loaded program
is run. The loop of `run` adds 4 to every transfer it makes; an assembler that takes 4 off
the offsets makes up for that, and the run is then the run of the control-flow machine on
the instructions as they were written. Both stop at a type that is not LUI, AUIPC, a jump or
a branch.
-/
namespace RiscvEmulator.Guarantees
open Source Source.Emulator Spec Library PartialRun Library.ExceptList Library.Ranges

variable {Handler : Type} {native : Endian} {source : List Byte}

section Load
variable {std : StdSort SegmentHeader.less} {emulator : Emulator Handler} {base capacity : Nat}

/-- What the mapped memory holds at the places of a data segment. -/
theorem getD_of_dataMapped {data code : List SegmentHeader} {before after : List Byte}
    (haccepted : AcceptedHeaders native source data code)
    (hwrap : ∀ header ∈ data, (destinationRange header).stop < 2 ^ 64)
    (hmapped : DataMapped source data before after) {header : SegmentHeader}
    (hheader : header ∈ dataHeaders native source) (hpresent : Present source header) {k : Nat}
    (hk : k < header.destinationSize.toNat) :
    after[header.destinationStart.toNat + k]? =
      some ((segmentOf source header).bytes.getD k 0) := by
  obtain ⟨hbytes, hzeros⟩ := image_of_dataMapped haccepted hwrap hmapped hheader
  have hlength := length_bytes hpresent
  by_cases hsource : k < header.sourceSize.toNat
  · obtain ⟨byte, hbyte, hafter⟩ := hbytes k hsource
    have hfile : (segmentOf source header).bytes[k]? = some byte :=
      (fileBytes_getElem? hsource).trans hbyte
    rw [hafter, List.getD_eq_getElem?_getD, hfile]
    rfl
  · have hpast : (segmentOf source header).bytes[k]? = none :=
      List.getElem?_eq_none (by omega)
    rw [hzeros k (by omega) hk, List.getD_eq_getElem?_getD, hpast]
    rfl

theorem readHeaders_of_checks (h : Readable native source)
    (hdata : checkData (kept false (segmentsOf native source)) = .ok ())
    (hcode : checkCode (kept true (segmentsOf native source)) = .ok ()) :
    readHeaders std native source =
      .ok (sortedHeaders std native false source, sortedHeaders std native true source) := by
  have hperm (executable : Bool) :
      ((sortedHeaders std native executable source).map (segmentOf source)).Perm
        (kept executable (segmentsOf native source)) := by
    rw [kept_segmentsOf h.inside]
    exact (std.perm _).map _
  rw [readHeaders_readable h, validateDataHeaders_eq order_sorted (present_sorted h),
    validateCodeHeaders_eq order_sorted (present_sorted h), checkData_perm (hperm false),
    checkCode_perm (hperm true), hdata, hcode]
  rfl

theorem sorted_mem_kept (h : Readable native source) {executable : Bool} {header : SegmentHeader}
    (hmem : header ∈ sortedHeaders std native executable source) :
    segmentOf source header ∈ kept executable (segmentsOf native source) := by
  rw [kept_segmentsOf h.inside]
  exact List.mem_map_of_mem ((std.perm _).mem_iff.mp hmem)

/-- A total size is 0 or where one of the segments stops. -/
theorem totalSize_le {headers : List SegmentHeader} {limit : Nat}
    (hwrap : ∀ header ∈ headers, (destinationRange header).stop < 2 ^ 64)
    (hstops : ∀ header ∈ headers, (destinationRange header).stop ≤ limit) :
    totalSize headers ≤ limit := by
  cases hlast : headers.getLast? with
  | none =>
    unfold totalSize
    rw [hlast]
    exact Nat.zero_le _
  | some last =>
    have hmem := List.mem_of_getLast? hlast
    rw [totalSize_of_getLast? hlast (hwrap last hmem)]
    exact hstops last hmem

/-- A file whose segments pass the checks is loaded into fresh memory with room for them. -/
theorem loadElf_of_checks (h : Readable native source)
    (hfresh : emulator.memory = Arena.new base capacity) (hbase : 0 < base)
    (hdata : checkData (kept false (segmentsOf native source)) = .ok ())
    (hcode : checkCode (kept true (segmentsOf native source)) = .ok ())
    (hroom : ∀ part ∈ kept false (segmentsOf native source), part.range.stop ≤ capacity)
    (hlimit : ∀ part ∈ kept true (segmentsOf native source), part.range.stop ≤ vectorMaxSize)
    {instrs : List Instruction}
    (hdecode : ∀ parts : List Segment, parts.Perm (kept true (segmentsOf native source)) →
      parts.Pairwise (fun a b => a.start.toNat < b.start.toNat) →
      decodeInstructions native (parts.flatMap Segment.bytes) = .ok instrs) :
    ∃ loaded, loadElf std native source emulator = (.ok (), loaded) ∧
      loaded.instructions = instrs ∧
      ∀ part ∈ kept false (segmentsOf native source), ∀ k, k < part.size.toNat →
        loaded.memory.raw[part.start.toNat + k]? = some (part.bytes.getD k 0) := by
  have hheaders := @readHeaders_of_checks native source std h hdata hcode
  have haccepted := readHeaders_ok hheaders
  obtain ⟨hwrapData, hwrapCode⟩ := haccepted.forall_load fun header hmem =>
    (h.noWrap header hmem).destination
  have hplaced : Placed emulator.memory := by
    rw [hfresh]
    exact placed_new base capacity hbase
  have hfree : emulator.memory.getFreeSpace = capacity := by
    rw [hfresh, Arena.new, Arena.getFreeSpace]
  obtain ⟨mapped, hmap⟩ := (mapDataSegments_readHeaders_iff hheaders h.noWrap hplaced).mpr (by
    rw [hfree]
    exact totalSize_le hwrapData fun header hmem => hroom _ (sorted_mem_kept h hmem))
  have hbytes : (sortedHeaders std native true source).flatMap (fileBytes source) =
      ((sortedHeaders std native true source).map (segmentOf source)).flatMap Segment.bytes := by
    rw [List.flatMap_map]
    rfl
  have hprogram : decodeInstructions native
      ((sortedHeaders std native true source).flatMap (fileBytes source)) = .ok instrs := by
    rw [hbytes]
    apply hdecode
    · rw [kept_segmentsOf h.inside]
      exact (std.perm _).map _
    · exact List.pairwise_map.mpr (haccepted.code_starts hwrapCode)
  obtain ⟨loaded, hmapCode⟩ := (@mapCodeSegments_accepts_iff native source _ mapped _ _ std
    hheaders h.noWrap).mpr
      ⟨totalSize_le hwrapCode fun header hmem => hlimit _ (sorted_mem_kept h hmem), instrs,
        hprogram⟩
  refine ⟨loaded, loadElf_accepts hheaders hmap hmapCode, ?_⟩
  obtain ⟨buffer, decoded, hcopy, hdecoded, rfl⟩ := mapCodeSegments_ok hmapCode
  constructor
  · obtain ⟨first, rest, hfirst, hzero⟩ := haccepted.codeFirst
    have hsizes := haccepted.codeSizes
    have hadjoins := adjoins_of_chain haccepted.codeChain hwrapCode
    rw [hfirst] at hsizes hadjoins hcopy hprogram hwrapCode
    rw [copySegments_contiguous hzero hsizes hadjoins hwrapCode hcopy, hprogram] at hdecoded
    exact (Except.ok.inj hdecoded).symm
  · intro part hpart k hk
    have hmapped := mapDataSegments_ok hfresh (before_of_chain haccepted.dataChain hwrapData)
      hwrapData haccepted.dataFits hmap
    rw [kept_segmentsOf h.inside] at hpart
    obtain ⟨header, hkept, rfl⟩ := List.mem_map.mp hpart
    have hheader : header ∈ dataHeaders native source := by
      simpa [dataHeaders] using List.mem_of_mem_filter hkept
    exact getD_of_dataMapped haccepted hwrapData hmapped hheader (h.present hkept) hk

end Load

/-- The instruction with its offset, if it has one, smaller by 4. -/
def shortened (instr : Instruction) : Instruction :=
  if instr.type ∈ transferTypes then { instr with immediate := instr.immediate - 4 } else instr

/-- The segment of a program that starts at 0. -/
def codePart (program : List Byte) : Segment where
  executable := true
  start := 0
  bytes := program
  size := BitVec.ofNat 64 program.length

def assemble (instrs : List Instruction) (data : List Segment) : List Segment :=
  codePart (encodeProgram (instrs.map shortened)) :: data

/-- The instructions can be written with their shortened offsets, and the data is laid out
in `capacity` bytes of memory. -/
structure Assemblable (instrs : List Instruction) (data : List Segment) (capacity : Nat) :
    Prop where
  nonempty : instrs ≠ []
  integer : ∀ instr ∈ instrs, IsInteger instr.type
  legal : ∀ instr ∈ instrs, Legal (shortened instr)
  fence : ∀ instr ∈ instrs, instr.type = .FENCE → ¬IsFenceHint instr.immediate
  linkFree : ∀ instr ∈ instrs, ¬LinksIntoBase instr
  count : data.length + 1 < 2 ^ 16
  size : (link (assemble instrs data)).length < 2 ^ 63
  dataOnly : ∀ part ∈ data, part.executable = false
  fits : ∀ part ∈ data, part.bytes.length ≤ part.size.toNat
  overlap : NoOverlap data
  room : ∀ part ∈ data, part.range.stop ≤ capacity
  bounded : capacity < 2 ^ 64

section Assemble
variable {instr : Instruction} {instrs : List Instruction} {data : List Segment}
  {capacity : Nat}

theorem shortened_type (instr : Instruction) : (shortened instr).type = instr.type := by
  unfold shortened
  split <;> rfl

/-- The loop adds what the assembler takes off. -/
theorem displaced_shortened (instr : Instruction) : displaced (shortened instr) = instr := by
  unfold displaced
  rw [shortened_type]
  unfold shortened
  split
  · show { instr with immediate := instr.immediate - 4 + 4 } = instr
    rw [BitVec.sub_add_cancel]
  · rfl

theorem shortened_registers (instr : Instruction) :
    (shortened instr).destinationRegister = instr.destinationRegister ∧
      (shortened instr).sourceRegister1 = instr.sourceRegister1 := by
  unfold shortened
  split <;> exact ⟨rfl, rfl⟩

theorem shortened_of_fence (h : instr.type = .FENCE) : shortened instr = instr :=
  if_neg (by rw [h]; decide)

/-- The assembled words are decoded to the shortened instructions. -/
theorem decodeInstructions_assembled (h : Assemblable instrs data capacity) :
    decodeInstructions native (encodeProgram (instrs.map shortened)) =
      .ok (instrs.map shortened) := by
  rw [encodeProgram, decodeInstructions_wordBytes, ExceptList.mapM_ok_iff,
    List.forall₂_map_left_iff, List.forall₂_same]
  intro instr hmem
  obtain ⟨source, hsource, rfl⟩ := List.mem_map.mp hmem
  have htype := shortened_type source
  apply decodeWord_encode
  · rw [htype]
    exact h.integer source hsource
  · exact h.legal source hsource
  · intro hfence
    rw [htype] at hfence
    rw [shortened_of_fence hfence]
    exact h.fence source hsource hfence

theorem encodeProgram_ne_nil (h : instrs ≠ []) : encodeProgram (instrs.map shortened) ≠ [] := by
  intro hnil
  have hlength := congrArg List.length hnil
  rw [encodeProgram, WordBytes.length_flatMap, List.length_map, List.length_map,
    List.length_nil] at hlength
  exact h (List.length_eq_zero_iff.mp (by omega))

theorem kept_assemble_code (h : Assemblable instrs data capacity) :
    kept true (assemble instrs data) = [codePart (encodeProgram (instrs.map shortened))] := by
  have hcode : (codePart (encodeProgram (instrs.map shortened))).isEmpty = false := by
    simp [Segment.isEmpty, codePart, encodeProgram_ne_nil h.nonempty]
  have hkind : (codePart (encodeProgram (instrs.map shortened))).executable = true := rfl
  unfold kept assemble
  rw [List.filter_cons_of_pos (by simp [hkind, hcode]), List.filter_eq_nil_iff.mpr]
  intro part hmem
  simp [h.dataOnly part hmem]

theorem kept_assemble_data (h : Assemblable instrs data capacity) :
    kept false (assemble instrs data) = data.filter fun part => !part.isEmpty := by
  unfold kept assemble
  rw [List.filter_cons_of_neg (by simp [codePart])]
  apply List.filter_congr
  intro part hmem
  simp [h.dataOnly part hmem]

theorem checkCode_codePart {program : List Byte} (hsize : program.length < 2 ^ 64) :
    checkCode [codePart program] = .ok () := by
  have hlength : (codePart program).size.toNat = program.length :=
    (BitVec.toNat_ofNat ..).trans (Nat.mod_eq_of_lt hsize)
  have htiles : Tiles [codePart program] := by
    refine ⟨program.length, fun i => ?_⟩
    have hcontains : (codePart program).range.Contains i ↔ i < program.length := by
      rw [← hlength, ← Nat.zero_add (codePart program).size.toNat]
      exact and_iff_right (Nat.zero_le i)
    by_cases hi : i < program.length
    · simp [hcontains, hi]
    · simp [hcontains, hi]
  unfold checkCode
  rw [if_neg (List.cons_ne_nil _ _), if_neg, if_neg, if_neg (not_not.mpr htiles)]
  · exact fun hstart => hstart _ List.mem_cons_self rfl
  · rintro ⟨part, hmem, hdiffers⟩
    rw [List.mem_singleton.mp hmem] at hdiffers
    exact hdiffers hlength

theorem checkData_assembled (h : Assemblable instrs data capacity) :
    checkData (data.filter fun part => !part.isEmpty) = .ok () := by
  have hoverlap : NoOverlap (data.filter fun part => !part.isEmpty) := h.overlap.filter _
  unfold checkData
  rw [if_neg, if_neg (not_not.mpr hoverlap)]
  rintro ⟨part, hmem, hlarge⟩
  have hfits := h.fits part (List.mem_of_mem_filter hmem)
  omega

theorem length_program_lt (h : Assemblable instrs data capacity) :
    (encodeProgram (instrs.map shortened)).length < 2 ^ 63 - 64 := by
  have hsize := h.size
  rw [length_link, assemble, List.flatMap_cons, List.length_append] at hsize
  have hbytes : (codePart (encodeProgram (instrs.map shortened))).bytes =
      encodeProgram (instrs.map shortened) := rfl
  rw [hbytes] at hsize
  omega

theorem stop_codePart {program : List Byte} (hsize : program.length < 2 ^ 64) :
    (codePart program).range.stop = program.length := by
  show (0 : BitVec 64).toNat + (BitVec.ofNat 64 program.length).toNat = program.length
  rw [BitVec.toNat_ofNat, Nat.mod_eq_of_lt hsize]
  exact Nat.zero_add _

/-- The run over the shortened instructions is the machine's over the instructions. -/
theorem run_shortened {program : List Byte}
    (hdecode : decodeInstructions native program = .ok (instrs.map shortened))
    (hfree : ∀ instr ∈ instrs, ¬LinksIntoBase instr) (t : Thread) (k : Nat) :
    Hart.after instrs (hartOf t) k = (threadAtTest (instrs.map shortened) t k).map hartOf := by
  have hinverse : displaced ∘ shortened = id := funext displaced_shortened
  have hsame : (instrs.map shortened).map displaced = instrs := by
    rw [List.map_map, hinverse, List.map_id]
  have hlink : ∀ instr ∈ instrs.map shortened, ¬LinksIntoBase instr := by
    intro instr hmem
    obtain ⟨source, hsource, rfl⟩ := List.mem_map.mp hmem
    obtain ⟨hrd, hrs1⟩ := shortened_registers source
    have hnot := hfree source hsource
    unfold LinksIntoBase at hnot ⊢
    rwa [shortened_type, hrd, hrs1]
  have hstep (s : Thread) : Hart.step instrs (hartOf s) =
      (nextTest (instrs.map shortened) s).map hartOf := by
    have hbelow : ∀ instr ∈ instrs.map shortened, OperandsBelow instr := fun instr hmem =>
      (decodeInstructions_below hdecode instr hmem).toOperandsBelow
    have hdisplaced := step_displaced hbelow (decodeInstructions_bounded hdecode) hlink s
    rwa [hsame] at hdisplaced
  exact runFor_map hstep t k

/-- The assembled file is loaded to the shortened instructions and to its data. -/
theorem loadElf_assembled {std : StdSort SegmentHeader.less} {emulator : Emulator Handler}
    {base : Nat} (hfresh : emulator.memory = Arena.new base capacity) (hbase : 0 < base)
    (h : Assemblable instrs data capacity) :
    ∃ loaded, loadElf std native (link (assemble instrs data)) emulator = (.ok (), loaded) ∧
      loaded.instructions = instrs.map shortened ∧
      ∀ part ∈ data, ∀ k, k < part.size.toNat →
        loaded.memory.raw[part.start.toNat + k]? = some (part.bytes.getD k 0) := by
  have hlength := length_program_lt h
  have hcount : (assemble instrs data).length < 2 ^ 16 := h.count
  have hfile : (link (assemble instrs data)).length < 2 ^ 64 := h.size.trans (by decide)
  have hstop := @stop_codePart (encodeProgram (instrs.map shortened)) (by omega)
  have hstops : ∀ part ∈ assemble instrs data, part.range.stop < 2 ^ 64 := by
    intro part hmem
    rcases List.mem_cons.mp hmem with rfl | hmem
    · rw [hstop]
      omega
    · exact (h.room part hmem).trans_lt h.bounded
  have hdecode := @decodeInstructions_assembled native instrs data capacity h
  obtain ⟨loaded, hload, hinstructions, hmemory⟩ :=
    @loadElf_of_checks Handler native (link (assemble instrs data)) std emulator base capacity
      (readable_link hcount hfile hstops) hfresh hbase
      (by
        rw [segmentsOf_link hcount hfile, kept_assemble_data h]
        exact checkData_assembled h)
      (by
        rw [segmentsOf_link hcount hfile, kept_assemble_code h]
        exact checkCode_codePart (by omega))
      (by
        rw [segmentsOf_link hcount hfile, kept_assemble_data h]
        exact fun part hmem => h.room part (List.mem_of_mem_filter hmem))
      (by
        rw [segmentsOf_link hcount hfile, kept_assemble_code h]
        intro part hmem
        rw [List.mem_singleton.mp hmem, hstop]
        unfold vectorMaxSize
        omega)
      (instrs.map shortened)
      (by
        rw [segmentsOf_link hcount hfile, kept_assemble_code h]
        intro parts hperm _
        rw [List.perm_singleton.mp hperm, List.flatMap_singleton]
        exact hdecode)
  rw [segmentsOf_link hcount hfile, kept_assemble_data h] at hmemory
  refine ⟨loaded, hload, hinstructions, fun part hmem k hk => ?_⟩
  refine hmemory part (List.mem_filter.mpr ⟨hmem, ?_⟩) k hk
  cases hempty : part.isEmpty with
  | false => rfl
  | true =>
    rw [(of_decide_eq_true hempty).2] at hk
    exact absurd hk (Nat.not_lt_zero k)

end Assemble

/-- A program that is assembled with offsets smaller by 4, linked with its data and loaded,
runs as the control-flow machine runs the program that was written, on memory that holds the
data. -/
theorem assembled_run {Handler : Type} (std : StdSort SegmentHeader.less) (native : Endian)
    (instrs : List Instruction) (data : List Segment) (base capacity : Nat)
    (emulator : Emulator Handler) (hfresh : emulator.memory = Arena.new base capacity)
    (hbase : 0 < base) (h : Assemblable instrs data capacity) :
    ∃ loaded, loadElf std native (link (assemble instrs data)) emulator = (.ok (), loaded) ∧
      (∀ part ∈ data, ∀ k, k < part.size.toNat →
        loaded.memory.raw[part.start.toNat + k]? = some (part.bytes.getD k 0)) ∧
      ∀ (t : Thread) (k : Nat), Hart.after instrs (hartOf t) k =
        (threadAtTest loaded.instructions t k).map hartOf := by
  obtain ⟨loaded, hload, hinstructions, hmemory⟩ :=
    @loadElf_assembled Handler native instrs data capacity std emulator base hfresh hbase h
  refine ⟨loaded, hload, hmemory, fun t k => ?_⟩
  rw [hinstructions]
  exact run_shortened (@decodeInstructions_assembled native instrs data capacity h) h.linkFree t k

/-- A JAL over the next instruction, and the instruction it goes to. -/
def skipProgram : List Instruction :=
  [{ immediate := 8, destinationRegister := 1, type := .JAL },
   { immediate := 0x1000, destinationRegister := 5, type := .LUI },
   { immediate := 0x2000, destinationRegister := 6, type := .LUI }]

def skipData : List Segment := [⟨false, 2, [0xaa, 0xbb], 4⟩]

theorem assemblable_skip {capacity : Nat} (hlow : 8 ≤ capacity) (hhigh : capacity < 2 ^ 64) :
    Assemblable skipProgram skipData capacity where
  nonempty := List.cons_ne_nil _ _
  integer := by decide
  legal := by
    simp only [skipProgram, List.forall_mem_cons, List.not_mem_nil, false_implies, implies_true,
      and_true]
    refine ⟨?_, ?_, ?_⟩ <;> refine ⟨by decide, by decide, by decide, ?_⟩
    · exact ⟨rfl, rfl, by decide, by decide, by decide⟩
    · exact ⟨rfl, rfl, by decide⟩
    · exact ⟨rfl, rfl, by decide⟩
  fence := by decide
  linkFree := by
    simp [skipProgram, LinksIntoBase]
  count := by decide
  size := by decide +kernel
  dataOnly := by decide
  fits := by decide
  overlap := List.pairwise_singleton _ _
  room := by
    intro part hmem
    have hstop : part.range.stop ≤ 8 := by
      rw [List.mem_singleton.mp hmem]
      decide
    exact hstop.trans hlow
  bounded := hhigh

theorem assembled_run_skip :
    ∃ loaded, loadElf insertionSort .little (link (assemble skipProgram skipData))
        (Emulator.new 4096 8 : Emulator Unit) = (.ok (), loaded) ∧
      (∀ part ∈ skipData, ∀ k, k < part.size.toNat →
        loaded.memory.raw[part.start.toNat + k]? = some (part.bytes.getD k 0)) ∧
      ∀ (t : Thread) (k : Nat), Hart.after skipProgram (hartOf t) k =
        (threadAtTest loaded.instructions t k).map hartOf :=
  assembled_run insertionSort .little skipProgram skipData 4096 8 (Emulator.new 4096 8) rfl
    (by decide) (assemblable_skip (by decide) (by decide))

end RiscvEmulator.Guarantees
