import Mathlib.Data.List.Perm.Basic
import RiscvEmulator.Spec.ElfImage

/-!
# The headers the loader accepts

What reading, sorting and validating the segment headers says about the file: the sorted
lists are the nonempty data and code entries of its program header table, and their
neighbours are as the validators require.
-/
namespace RiscvEmulator.Guarantees
open Source Spec Library.ExceptList Library.Ranges

variable {native : Endian} {source : List Byte} {elfHeader : ElfHeader}

/-- The entries of the table from entry `i` on. -/
def entriesFrom (native : Endian) (source : List Byte) (elfHeader : ElfHeader)
    (i remaining : Nat) : List SegmentHeader :=
  (List.range' i remaining).filterMap fun j =>
    (SegmentHeader.read native source (entryOffset elfHeader j)).toOption

theorem entriesFrom_succ {header : SegmentHeader} {i remaining : Nat}
    (hread : SegmentHeader.read native source (entryOffset elfHeader i) = .ok header) :
    entriesFrom native source elfHeader i (remaining + 1) =
      header :: entriesFrom native source elfHeader (i + 1) remaining := by
  unfold entriesFrom
  rw [List.range'_succ, List.filterMap_cons_some (b := header) (by rw [hread]; rfl)]

/-- The nonempty PT_LOAD entries of one kind. -/
def selected (kind : SegmentHeader → Bool) (headers : List SegmentHeader) : List SegmentHeader :=
  ((headers.filter fun header => header.type = SegmentHeader.typeLoad).filter kind).filter
    fun header => !isEmpty header

section Selected
variable {kind : SegmentHeader → Bool} {header : SegmentHeader} {headers : List SegmentHeader}

theorem selected_cons_other (htype : header.type ≠ SegmentHeader.typeLoad) :
    selected kind (header :: headers) = selected kind headers := by
  unfold selected
  rw [List.filter_cons_of_neg (by simpa using htype)]

theorem selected_cons_empty (hempty : isEmpty header = true) :
    selected kind (header :: headers) = selected kind headers := by
  unfold selected
  by_cases htype : header.type = SegmentHeader.typeLoad
  · rw [List.filter_cons_of_pos (by simpa using htype)]
    by_cases hkind : kind header = true
    · rw [List.filter_cons_of_pos hkind, List.filter_cons_of_neg (by simp [hempty])]
    · rw [List.filter_cons_of_neg hkind]
  · rw [List.filter_cons_of_neg (by simpa using htype)]

theorem selected_cons (htype : header.type = SegmentHeader.typeLoad)
    (hempty : isEmpty header = false) :
    selected kind (header :: headers) =
      if kind header then header :: selected kind headers else selected kind headers := by
  unfold selected
  rw [List.filter_cons_of_pos (by simpa using htype)]
  split
  · next hkind => rw [List.filter_cons_of_pos hkind, List.filter_cons_of_pos (by simp [hempty])]
  · next hkind => rw [List.filter_cons_of_neg hkind]

end Selected

/-- What one round of the loop, and then the whole loop, does with the entries it reads. -/
theorem readSegmentHeadersLoop_ok {remaining i : Nat} {data code data' code' : List SegmentHeader}
    (h : readSegmentHeadersLoop native elfHeader source remaining i data code =
      .ok (data', code')) :
    data' = data ++ selected (fun header => !isExecutable header)
        (entriesFrom native source elfHeader i remaining) ∧
      code' = code ++ selected isExecutable
        (entriesFrom native source elfHeader i remaining) := by
  induction remaining generalizing i data code with
  | zero =>
    obtain ⟨rfl, rfl⟩ := Prod.mk.inj (Except.ok.inj h)
    simp [entriesFrom, selected]
  | succ remaining ih =>
    unfold readSegmentHeadersLoop at h
    obtain ⟨header, hread, h⟩ := bind_ok h
    rw [entriesFrom_succ hread]
    split at h
    · next htype =>
      rw [selected_cons_other htype, selected_cons_other htype]
      exact ih h
    next htype =>
    replace htype := not_not.mp htype
    split at h
    · next hempty =>
      have hempty' : isEmpty header = true := decide_eq_true hempty
      rw [selected_cons_empty hempty', selected_cons_empty hempty']
      exact ih h
    next hempty =>
    have hempty' : isEmpty header = false := decide_eq_false hempty
    rw [selected_cons htype hempty', selected_cons htype hempty']
    split at h
    · cases h
    split at h
    · next hexec =>
      have hkind : isExecutable header = true := decide_eq_true hexec
      rw [hkind, if_neg (by simp), if_pos rfl]
      obtain ⟨hdata, hcode⟩ := ih h
      refine ⟨hdata, ?_⟩
      rw [hcode, List.append_assoc, List.singleton_append]
    · next hexec =>
      have hkind : isExecutable header = false := decide_eq_false hexec
      rw [hkind, if_pos (by simp), if_neg (by simp)]
      obtain ⟨hdata, hcode⟩ := ih h
      refine ⟨?_, hcode⟩
      rw [hdata, List.append_assoc, List.singleton_append]

/-- Comparing neighbours establishes the relation between them. -/
theorem isChain_of_anyNeighbours {fails : SegmentHeader → SegmentHeader → Bool}
    {headers : List SegmentHeader} (h : anyNeighbours fails headers = false) :
    headers.IsChain fun a b => fails a b = false := by
  induction headers with
  | nil => exact .nil
  | cons header headers ih =>
    cases headers with
    | nil => exact .singleton _
    | cons next headers =>
      unfold anyNeighbours at h
      obtain ⟨hfirst, hrest⟩ := Bool.or_eq_false_iff.mp h
      exact .cons_cons hfirst (ih hrest)

theorem validateDataHeaders_ok {headers : List SegmentHeader}
    (h : validateDataHeaders headers = .ok ()) :
    (∀ header ∈ headers, header.sourceSize.toNat ≤ header.destinationSize.toNat) ∧
      headers.IsChain fun a b => a.destinationEnd.toNat ≤ b.destinationStart.toNat := by
  unfold validateDataHeaders at h
  split at h
  · cases h
  next hfits =>
  split at h
  · cases h
  next hneighbours =>
  constructor
  · intro header hmem
    by_contra hlarge
    exact hfits (List.any_eq_true.mpr ⟨header, hmem, decide_eq_true (by
      rw [gt_iff_lt, BitVec.lt_def]
      omega)⟩)
  · refine (isChain_of_anyNeighbours (Bool.eq_false_iff.mpr hneighbours)).imp fun a b hab => ?_
    have hnot := of_decide_eq_false hab
    rw [gt_iff_lt, BitVec.lt_def] at hnot
    omega

theorem validateCodeHeaders_ok {headers : List SegmentHeader}
    (h : validateCodeHeaders headers = .ok ()) :
    ∃ first rest, headers = first :: rest ∧ first.destinationStart = 0 ∧
      (∀ header ∈ headers, header.destinationSize = header.sourceSize) ∧
      headers.IsChain fun a b => a.destinationEnd = b.destinationStart := by
  unfold validateCodeHeaders at h
  split at h
  · cases h
  next first rest =>
  split at h
  · cases h
  next hsizes =>
  split at h
  · cases h
  next hstart =>
  split at h
  · cases h
  next hneighbours =>
  refine ⟨first, rest, rfl, not_not.mp hstart, ?_, ?_⟩
  · intro header hmem
    by_contra hdiffers
    exact hsizes (List.any_eq_true.mpr ⟨header, hmem, bne_iff_ne.mpr hdiffers⟩)
  · refine (isChain_of_anyNeighbours (Bool.eq_false_iff.mpr hneighbours)).imp fun a b hab => ?_
    exact eq_of_beq (by simpa [bne] using hab)

/-- What the loader knows of the sorted headers once it accepts them. -/
structure AcceptedHeaders (native : Endian) (source : List Byte)
    (data code : List SegmentHeader) : Prop where
  dataPerm : data.Perm ((dataHeaders native source).filter fun header => !isEmpty header)
  codePerm : code.Perm ((codeHeaders native source).filter fun header => !isEmpty header)
  codeOrder : AddressOrder code
  dataFits : ∀ header ∈ data, header.sourceSize.toNat ≤ header.destinationSize.toNat
  dataChain : data.IsChain fun a b => a.destinationEnd.toNat ≤ b.destinationStart.toNat
  codeFirst : ∃ first rest, code = first :: rest ∧ first.destinationStart = 0
  codeSizes : ∀ header ∈ code, header.destinationSize = header.sourceSize
  codeChain : code.IsChain fun a b => a.destinationEnd = b.destinationStart

theorem addressOrder_sort (std : StdSort SegmentHeader.less) (headers : List SegmentHeader) :
    AddressOrder (sortHeadersBySegmentAddresses std headers) := by
  refine (std.sorted headers).imp fun {a b} hab => ?_
  have hnot := of_decide_eq_false hab
  rw [BitVec.lt_def] at hnot
  omega

/-- What the accepted headers went through. -/
theorem readHeaders_cases {std : StdSort SegmentHeader.less} {data code : List SegmentHeader}
    (h : readHeaders std native source = .ok (data, code)) :
    ∃ elfHeader data₀ code₀, ElfHeader.read native source = .ok elfHeader ∧
      readSegmentHeaders native elfHeader source = .ok (data₀, code₀) ∧
      data = sortHeadersBySegmentAddresses std data₀ ∧
      code = sortHeadersBySegmentAddresses std code₀ ∧
      validateDataHeaders data = .ok () ∧ validateCodeHeaders code = .ok () := by
  unfold readHeaders at h
  obtain ⟨elfHeader, helf, h⟩ := bind_ok h
  obtain ⟨⟨data₀, code₀⟩, hsegments, h⟩ := bind_ok h
  obtain ⟨⟨⟩, hvalidData, h⟩ := bind_ok h
  obtain ⟨⟨⟩, hvalidCode, h⟩ := bind_ok h
  obtain ⟨rfl, rfl⟩ := Prod.mk.inj (Except.ok.inj h)
  exact ⟨elfHeader, data₀, code₀, helf, hsegments, rfl, rfl, hvalidData, hvalidCode⟩

theorem entriesFrom_zero (helf : ElfHeader.read native source = .ok elfHeader) :
    entriesFrom native source elfHeader 0 elfHeader.programHeaderEntryCount.toNat =
      programHeaders native source := by
  simp only [programHeaders, helf, entriesFrom, List.range_eq_range']

theorem readHeaders_ok {std : StdSort SegmentHeader.less} {data code : List SegmentHeader}
    (h : readHeaders std native source = .ok (data, code)) :
    AcceptedHeaders native source data code := by
  obtain ⟨elfHeader, data₀, code₀, helf, hsegments, rfl, rfl, hvalidData, hvalidCode⟩ :=
    readHeaders_cases h
  obtain ⟨hdata, hcode⟩ := readSegmentHeadersLoop_ok hsegments
  rw [List.nil_append, entriesFrom_zero helf] at hdata hcode
  obtain ⟨hfits, hdataChain⟩ := validateDataHeaders_ok hvalidData
  obtain ⟨first, rest, hfirst, hzero, hsizes, hcodeChain⟩ := validateCodeHeaders_ok hvalidCode
  exact {
    dataPerm := (std.perm data₀).trans (.of_eq hdata)
    codePerm := (std.perm code₀).trans (.of_eq hcode)
    codeOrder := addressOrder_sort std code₀
    dataFits := hfits
    dataChain := hdataChain
    codeFirst := ⟨first, rest, hfirst, hzero⟩
    codeSizes := hsizes
    codeChain := hcodeChain }

end RiscvEmulator.Guarantees
