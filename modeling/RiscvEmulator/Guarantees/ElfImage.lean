import Mathlib.Data.List.MinMax
import RiscvEmulator.Guarantees.ElfMapping

/-!
# The loaded program image

`loadElf` on a file in which no segment wraps. Each data segment keeps its bytes and the
rest of the data memory keeps its zeros; as the code segments have different starts,
there is one order they can be sorted in.
-/
namespace RiscvEmulator.Guarantees
open Source Spec Library.Ranges

variable {Handler : Type} {native : Endian} {source : List Byte}

section Order
variable {headers : List SegmentHeader}

/-- Elements without output do not count in a concatenation. -/
theorem flatMap_filter {α β : Type} {f : α → List β} {p : α → Bool} {l : List α}
    (hnil : ∀ x ∈ l, p x = false → f x = []) : (l.filter p).flatMap f = l.flatMap f := by
  induction l with
  | nil => rfl
  | cons x l ih =>
    have hrest := ih fun y hy => hnil y (List.mem_cons_of_mem _ hy)
    cases hp : p x with
    | true => rw [List.filter_cons_of_pos hp, List.flatMap_cons, List.flatMap_cons, hrest]
    | false =>
      rw [List.filter_cons_of_neg (by simp [hp]), hrest, List.flatMap_cons,
        hnil x List.mem_cons_self hp, List.nil_append]

/-- Ranges of positive size in a row have increasing starts. -/
theorem pairwise_start_lt (hbefore : (headers.map destinationRange).Pairwise Range.Before)
    (hpos : ∀ header ∈ headers, 0 < header.destinationSize.toNat) :
    headers.Pairwise fun a b => a.destinationStart.toNat < b.destinationStart.toNat := by
  rw [List.pairwise_map] at hbefore
  refine hbefore.imp_of_mem fun {a b} ha _ hab => ?_
  have hsize := hpos a ha
  unfold Range.Before at hab
  rw [destinationRange_stop, destinationRange_start] at hab
  omega

/-- Headers with different starts have one address order. -/
theorem addressOrder_unique {code : List SegmentHeader}
    (hstarts : code.Pairwise fun a b => a.destinationStart.toNat < b.destinationStart.toNat)
    (hperm : headers.Perm code) (horder : AddressOrder headers) : headers = code := by
  refine List.Perm.eq_of_pairwise (fun a b ha hb hab hba => ?_) horder
    (hstarts.imp fun h => Nat.le_of_lt h) hperm
  have hne : code.Pairwise fun a b => a.destinationStart.toNat ≠ b.destinationStart.toNat :=
    hstarts.imp fun h => Nat.ne_of_lt h
  have hsymm : Std.Symm fun a b : SegmentHeader =>
      a.destinationStart.toNat ≠ b.destinationStart.toNat := ⟨fun _ _ h => h.symm⟩
  by_contra hdiffers
  exact hne.forall (hperm.mem_iff.mp ha) hb hdiffers (Nat.le_antisymm hab hba)

end Order

section Load
variable {std : StdSort SegmentHeader.less} {emulator loaded : Emulator Handler}
  {data code : List SegmentHeader}

theorem loadElf_ok (h : loadElf std native source emulator = (.ok (), loaded)) :
    ∃ data code mapped, readHeaders std native source = .ok (data, code) ∧
      mapDataSegments data source emulator = .ok mapped ∧
      mapCodeSegments native code source mapped = .ok loaded := by
  unfold loadElf at h
  split at h
  · cases h
  next data code hheaders =>
  split at h
  · cases h
  next mapped hdata =>
  split at h
  · cases h
  next loaded' hcode =>
  obtain rfl := (Prod.mk.inj h).2
  exact ⟨data, code, mapped, hheaders, hdata, hcode⟩

/-- The data buffer ends where the last data segment of the file does. -/
theorem totalSize_data (haccepted : AcceptedHeaders native source data code)
    (hwrap : ∀ header ∈ data, (destinationRange header).stop < 2 ^ 64) :
    totalSize data = totalDataSize native source := by
  have hstops := stop_le_totalSize (before_of_chain haccepted.dataChain hwrap) hwrap
  unfold totalDataSize
  apply Nat.le_antisymm
  · cases hlast : data.getLast? with
    | none =>
      unfold totalSize
      rw [hlast]
      exact Nat.zero_le _
    | some last =>
      have hmem := List.mem_of_getLast? hlast
      rw [totalSize_of_getLast? hlast (hwrap last hmem)]
      exact List.le_max_of_le
        (List.mem_map_of_mem (haccepted.dataPerm.mem_iff.mp hmem)) (Nat.le_refl _)
  · refine List.max_le_of_forall_le _ _ fun stop hmem => ?_
    obtain ⟨header, hheader, rfl⟩ := List.mem_map.mp hmem
    exact hstops header (haccepted.dataPerm.mem_iff.mpr hheader)

/-- No two data segments start at the same place. -/
theorem AcceptedHeaders.data_starts (haccepted : AcceptedHeaders native source data code)
    (hwrap : ∀ header ∈ data, (destinationRange header).stop < 2 ^ 64) :
    data.Pairwise fun a b => a.destinationStart.toNat < b.destinationStart.toNat := by
  have hbefore := before_of_chain haccepted.dataChain hwrap
  exact pairwise_start_lt (Range.pairwise_before hbefore)
    fun header hmem => haccepted.data_size_pos hmem

theorem AcceptedHeaders.code_starts (haccepted : AcceptedHeaders native source data code)
    (hwrap : ∀ header ∈ code, (destinationRange header).stop < 2 ^ 64) :
    code.Pairwise fun a b => a.destinationStart.toNat < b.destinationStart.toNat := by
  have hbefore := (adjoins_of_chain haccepted.codeChain hwrap).imp
    fun _ _ => Range.Adjoins.before
  exact pairwise_start_lt (Range.pairwise_before hbefore)
    fun header hmem => haccepted.code_size_pos hmem

/-- The order the file's code segments are in does not matter. -/
theorem flatMap_fileBytes_code (haccepted : AcceptedHeaders native source data code)
    (hwrap : ∀ header ∈ code, (destinationRange header).stop < 2 ^ 64)
    {headers : List SegmentHeader} (hperm : headers.Perm (codeHeaders native source))
    (horder : AddressOrder headers) :
    headers.flatMap (fileBytes source) = code.flatMap (fileBytes source) := by
  have hsame := addressOrder_unique (haccepted.code_starts hwrap)
    ((hperm.filter _).trans haccepted.codePerm.symm) (horder.filter _)
  rw [← hsame]
  refine (flatMap_filter fun header _ hempty => ?_).symm
  have hsize : header.sourceSize = 0 :=
    (of_decide_eq_true ((Bool.not_eq_false' _).mp hempty)).1
  unfold fileBytes
  rw [hsize]
  exact List.take_zero

/-- A byte of one data segment is not a byte of another one. -/
theorem data_apart (haccepted : AcceptedHeaders native source data code)
    (hwrap : ∀ header ∈ data, (destinationRange header).stop < 2 ^ 64)
    {header other : SegmentHeader} (hheader : header ∈ data) (hother : other ∈ data)
    (hne : header ≠ other) {i : Nat} (hi : (destinationRange header).Contains i) :
    i < other.destinationStart.toNat ∨
      other.destinationStart.toNat + other.sourceSize.toNat ≤ i := by
  have hfit := haccepted.dataFits other hother
  have hpairs := Range.pairwise_disjoint (before_of_chain haccepted.dataChain hwrap)
  rw [List.pairwise_map] at hpairs
  have hsymm : Std.Symm fun a b : SegmentHeader =>
      (destinationRange a).Disjoint (destinationRange b) := ⟨fun _ _ h i hi => h i hi.symm⟩
  have hapart := hpairs.forall hheader hother hne i
  have hoff : ¬(destinationRange other).Contains i := fun hcontains => hapart ⟨hi, hcontains⟩
  unfold Range.Contains at hoff
  rw [destinationRange_start, destinationRange_stop] at hoff
  omega

/-- The data memory is the image's once the accepted data segments are mapped. -/
theorem image_of_dataMapped {before after : List Byte}
    (haccepted : AcceptedHeaders native source data code)
    (hwrap : ∀ header ∈ data, (destinationRange header).stop < 2 ^ 64)
    (hmapped : DataMapped source data before after) {header : SegmentHeader}
    (hheader : header ∈ dataHeaders native source) :
    (∀ k, k < header.sourceSize.toNat → ∃ byte,
      source[header.sourceStart.toNat + k]? = some byte ∧
        after[header.destinationStart.toNat + k]? = some byte) ∧
    ∀ k, header.sourceSize.toNat ≤ k → k < header.destinationSize.toNat →
      after[header.destinationStart.toNat + k]? = some 0 := by
  cases hempty : isEmpty header with
  | true =>
    obtain ⟨hsource, hdestination⟩ := of_decide_eq_true hempty
    rw [hsource, hdestination]
    exact ⟨fun k hk => absurd hk (Nat.not_lt_zero k), fun k _ hk => absurd hk (Nat.not_lt_zero k)⟩
  | false =>
    have hmem := haccepted.data_mem.mpr ⟨hheader, hempty⟩
    constructor
    · intro k hk
      have hbounds := hmapped.bounds header hmem
      have hlt : header.sourceStart.toNat + k < source.length := by omega
      refine ⟨source[header.sourceStart.toNat + k], List.getElem?_eq_getElem hlt, ?_⟩
      rw [hmapped.copied header hmem k hk, List.getElem?_eq_getElem hlt]
    · intro k hsource hk
      have hcontains : (destinationRange header).Contains (header.destinationStart.toNat + k) := by
        unfold Range.Contains
        rw [destinationRange_start, destinationRange_stop]
        omega
      have hstop := stop_le_totalSize (before_of_chain haccepted.dataChain hwrap) hwrap header hmem
      refine hmapped.zeroed _ (hcontains.2.trans_le hstop) fun other hother => ?_
      by_cases hsame : header = other
      · rw [← hsame]
        omega
      · exact data_apart haccepted hwrap hmem hother hsame hcontains

end Load

/-- A successful load puts the file's program image into a fresh emulator. -/
theorem loadElf_loadedImage {std : StdSort SegmentHeader.less} {emulator loaded : Emulator Handler}
    {base capacity : Nat} (hfresh : emulator.memory = Arena.new base capacity)
    (hnowrap : ∀ header ∈ loadHeaders native source, NoWrap header)
    (h : loadElf std native source emulator = (.ok (), loaded)) :
    LoadedImage native source emulator loaded := by
  obtain ⟨data, code, mapped, hheaders, hdata, hcode⟩ := loadElf_ok h
  have haccepted := readHeaders_ok hheaders
  obtain ⟨hwrapData, hwrapCode⟩ := haccepted.forall_load fun header hmem =>
    (hnowrap header hmem).destination
  have hmapped := mapDataSegments_ok hfresh (before_of_chain haccepted.dataChain hwrapData)
    hwrapData haccepted.dataFits hdata
  have htotal := totalSize_data haccepted hwrapData
  obtain ⟨buffer, instructions, hcopy, hdecode, rfl⟩ := mapCodeSegments_ok hcode
  constructor
  case bytes =>
    intro header hheader
    exact (image_of_dataMapped haccepted hwrapData hmapped hheader).1
  case zeros =>
    intro header hheader
    exact (image_of_dataMapped haccepted hwrapData hmapped hheader).2
  case gaps =>
    intro i hi hgap
    rw [← htotal] at hi
    refine hmapped.zeroed i hi fun header hmem => ?_
    have hfit := haccepted.dataFits header hmem
    have hoff := hgap header (haccepted.data_mem.mp hmem).1
    unfold Range.Contains at hoff
    rw [destinationRange_start, destinationRange_stop] at hoff
    omega
  case unchanged =>
    intro i hi
    rw [← htotal] at hi
    exact hmapped.kept i hi
  case instructions =>
    intro headers hperm horder
    rw [flatMap_fileBytes_code haccepted hwrapCode hperm horder]
    have hadjoins := adjoins_of_chain haccepted.codeChain hwrapCode
    obtain ⟨first, rest, rfl, hzero⟩ := haccepted.codeFirst
    rw [← copySegments_contiguous hzero haccepted.codeSizes hadjoins hwrapCode hcopy]
    exact hdecode

theorem loadElf_paddedFile :
    (loadElf insertionSort .little paddedFile (Emulator.new 4096 8 : Emulator Unit)).1 =
      .ok () := by decide +kernel

theorem noWrap_paddedFile : ∀ header ∈ loadHeaders .little paddedFile, NoWrap header := by
  intro header hmem
  rw [loadHeaders_paddedFile, List.mem_cons, List.mem_singleton] at hmem
  rcases hmem with rfl | rfl
  · exact ⟨by decide, by decide⟩
  · exact ⟨by decide, by decide⟩

theorem loadElf_loadedImage_padded :
    LoadedImage .little paddedFile (Emulator.new 4096 8 : Emulator Unit)
      (loadElf insertionSort .little paddedFile (Emulator.new 4096 8)).2 := by
  have hload : loadElf insertionSort .little paddedFile (Emulator.new 4096 8 : Emulator Unit) =
      (.ok (), (loadElf insertionSort .little paddedFile (Emulator.new 4096 8)).2) := by
    rw [← loadElf_paddedFile]
  exact loadElf_loadedImage rfl noWrap_paddedFile hload

end RiscvEmulator.Guarantees
