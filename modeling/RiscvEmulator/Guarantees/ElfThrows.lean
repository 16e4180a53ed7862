import RiscvEmulator.Guarantees.DecoderThrows
import RiscvEmulator.Guarantees.ElfMapping

/-!
# What the loader throws

The loader's own rejections are exceptions thrown by value. What it adds to them is what
the decoder throws at the bytes of the code segments.
-/
namespace RiscvEmulator.Guarantees
open Source Spec Library.ExceptList

/-- The call returns or throws an exception by value. -/
def Reported {α : Type} (result : Except Abort α) : Prop :=
  (∃ a, result = .ok a) ∨ ∃ exception, result = .error (.thrown (.value exception))

/-- The call does not throw a pointer; it may still have no defined meaning. -/
def ThrowsValues {α : Type} (result : Except Abort α) : Prop :=
  ∀ exception, result ≠ .error (.thrown (.pointer exception))

section Sequences
variable {α β : Type}

theorem throwsValues_ok (a : α) : ThrowsValues (.ok a : Except Abort α) := by
  intro exception h
  cases h

theorem throwsValues_throwValue (exception : StdException) :
    ThrowsValues (throwValue exception : Except Abort α) := by
  intro thrown h
  cases h

theorem throwsValues_undefined :
    ThrowsValues (.error .undefinedBehaviour : Except Abort α) := by
  intro exception h
  cases h

theorem ThrowsValues.bind {x : Except Abort α} {f : α → Except Abort β} (hx : ThrowsValues x)
    (hf : ∀ a, ThrowsValues (f a)) : ThrowsValues (x >>= f) := by
  cases x with
  | ok a => exact hf a
  | error e =>
    intro exception h
    obtain rfl := Except.error.inj h
    exact hx exception rfl

end Sequences

section Headers
variable (native : Endian) (source ptr : List Byte)

theorem throwsValues_dereference : ThrowsValues (dereference ptr) := by
  unfold dereference
  split
  · exact throwsValues_ok _
  · exact throwsValues_undefined

theorem throwsValues_loadU16 : ThrowsValues (loadU16 native ptr) := by
  unfold loadU16
  split
  · exact throwsValues_ok _
  · exact throwsValues_undefined

theorem throwsValues_loadU32 : ThrowsValues (loadU32 native ptr) := by
  unfold loadU32
  split
  · exact throwsValues_ok _
  · exact throwsValues_undefined

theorem throwsValues_loadU64 : ThrowsValues (loadU64 native ptr) := by
  unfold loadU64
  split
  · exact throwsValues_ok _
  · exact throwsValues_undefined

theorem throwsValues_validate (header : ElfHeader) : ThrowsValues (header.validate source) := by
  unfold ElfHeader.validate
  split
  · exact throwsValues_throwValue _
  split
  · exact throwsValues_throwValue _
  split
  · exact throwsValues_throwValue _
  · exact throwsValues_ok _

theorem throwsValues_readElfHeader : ThrowsValues (ElfHeader.read native source) := by
  unfold ElfHeader.read
  split
  · exact throwsValues_throwValue _
  refine (throwsValues_loadU32 native _).bind fun magic => ?_
  refine (throwsValues_dereference _).bind fun elfClass => ?_
  refine (throwsValues_dereference _).bind fun data => ?_
  refine (throwsValues_dereference _).bind fun version => ?_
  refine (throwsValues_dereference _).bind fun osABI => ?_
  refine (throwsValues_loadU16 native _).bind fun type => ?_
  refine (throwsValues_loadU16 native _).bind fun machine => ?_
  refine (throwsValues_loadU64 native _).bind fun entry => ?_
  refine (throwsValues_loadU64 native _).bind fun programHeaderOffset => ?_
  refine (throwsValues_loadU16 native _).bind fun programHeaderEntrySize => ?_
  refine (throwsValues_loadU16 native _).bind fun programHeaderEntryCount => ?_
  exact (throwsValues_validate source _).bind fun _ => throwsValues_ok _

theorem throwsValues_readSegmentHeader (offset : BitVec 64) :
    ThrowsValues (SegmentHeader.read native source offset) := by
  unfold SegmentHeader.read
  refine (throwsValues_loadU32 native _).bind fun type => ?_
  refine (throwsValues_loadU32 native _).bind fun flags => ?_
  refine (throwsValues_loadU64 native _).bind fun sourceStart => ?_
  refine (throwsValues_loadU64 native _).bind fun destinationStart => ?_
  refine (throwsValues_loadU64 native _).bind fun sourceSize => ?_
  exact (throwsValues_loadU64 native _).bind fun destinationSize => throwsValues_ok _

theorem throwsValues_readSegmentHeadersLoop (elfHeader : ElfHeader) (remaining : Nat) :
    ∀ i data code,
      ThrowsValues (readSegmentHeadersLoop native elfHeader source remaining i data code) := by
  induction remaining with
  | zero => exact fun _ _ _ => throwsValues_ok _
  | succ remaining ih =>
    intro i data code
    unfold readSegmentHeadersLoop
    refine (throwsValues_readSegmentHeader native source _).bind fun header => ?_
    split
    · exact ih _ _ _
    split
    · exact ih _ _ _
    split
    · exact throwsValues_throwValue _
    split
    · exact ih _ _ _
    · exact ih _ _ _

theorem throwsValues_validateDataHeaders (headers : List SegmentHeader) :
    ThrowsValues (validateDataHeaders headers) := by
  unfold validateDataHeaders
  split
  · exact throwsValues_throwValue _
  split
  · exact throwsValues_throwValue _
  · exact throwsValues_ok _

theorem throwsValues_validateCodeHeaders (headers : List SegmentHeader) :
    ThrowsValues (validateCodeHeaders headers) := by
  unfold validateCodeHeaders
  split
  · exact throwsValues_throwValue _
  split
  · exact throwsValues_throwValue _
  split
  · exact throwsValues_throwValue _
  split
  · exact throwsValues_throwValue _
  · exact throwsValues_ok _

theorem throwsValues_readHeaders (std : StdSort SegmentHeader.less) :
    ThrowsValues (readHeaders std native source) := by
  unfold readHeaders
  refine (throwsValues_readElfHeader native source).bind fun elfHeader => ?_
  refine (throwsValues_readSegmentHeadersLoop native source elfHeader _ 0 [] []).bind
    fun segments => ?_
  refine (throwsValues_validateDataHeaders _).bind fun _ => ?_
  exact (throwsValues_validateCodeHeaders _).bind fun _ => throwsValues_ok _

end Headers

section Map
variable {Handler : Type} (source : List Byte) (headers : List SegmentHeader)

theorem copySegments_error {origin : Nat} {buffer : List Byte} {e : Abort}
    (h : copySegments source origin headers buffer = .error e) : e = .undefinedBehaviour := by
  induction headers generalizing buffer with
  | nil => cases h
  | cons header headers ih =>
    unfold copySegments at h
    split at h
    · exact (Except.error.inj h).symm
    split at h
    · exact (Except.error.inj h).symm
    · exact ih h

theorem throwsValues_copySegments (origin : Nat) (buffer : List Byte) :
    ThrowsValues (copySegments source origin headers buffer) := by
  intro exception h
  cases copySegments_error source headers h

theorem throwsValues_arena_copySegments (arena : Arena) (origin : Nat) :
    ThrowsValues (arena.copySegments source origin headers) := by
  unfold Arena.copySegments
  split
  · exact throwsValues_ok _
  next e h =>
    intro exception habort
    obtain rfl := Except.error.inj habort
    exact throwsValues_copySegments source headers origin _ exception h

theorem throwsValues_constructItems (type : ItemType) (storage : List Byte)
    (offset itemCount : Nat) :
    ThrowsValues (Arena.constructItems type storage offset itemCount) := by
  induction itemCount with
  | zero => exact throwsValues_ok _
  | succ itemCount ih =>
    unfold Arena.constructItems
    refine ih.bind fun previous => ?_
    split
    · exact throwsValues_ok _
    · exact throwsValues_undefined

theorem throwsValues_allocateArray (arena : Arena) (type : ItemType) (itemCount : BitVec 64) :
    ThrowsValues (arena.allocateArray type itemCount) := by
  unfold Arena.allocateArray
  have hraw : ThrowsValues (arena.allocateRaw (type.size * itemCount.toNat % 2 ^ 64)
      type.alignment) := by
    unfold Arena.allocateRaw
    split
    · exact throwsValues_throwValue _
    split
    · exact throwsValues_throwValue _
    · exact throwsValues_ok _
  refine hraw.bind fun allocated => ?_
  have hitems : ThrowsValues (allocated.2.withItems type allocated.1 itemCount.toNat) := by
    unfold Arena.withItems
    split
    · exact throwsValues_ok _
    next e h =>
      intro exception habort
      obtain rfl := Except.error.inj habort
      exact throwsValues_constructItems type _ _ _ exception h
  exact hitems.bind fun _ => throwsValues_ok _

theorem throwsValues_mapDataSegments (emulator : Emulator Handler) :
    ThrowsValues (mapDataSegments headers source emulator) := by
  unfold mapDataSegments
  split
  · exact throwsValues_ok _
  next last _ =>
  have hallocate : ThrowsValues (allocateDataMemory emulator.memory last.destinationEnd) := by
    unfold allocateDataMemory
    split
    · exact throwsValues_throwValue _
    · exact throwsValues_allocateArray _ _ _
  refine hallocate.bind fun allocated => ?_
  exact (throwsValues_arena_copySegments source headers allocated.2 allocated.1).bind
    fun _ => throwsValues_ok _

end Map

/-- The loader accepts the file's headers, maps its data segments and copies `program` out of
its code segments, to decode it. -/
def HoldsProgram {Handler : Type} (std : StdSort SegmentHeader.less) (native : Endian)
    (source : List Byte) (emulator : Emulator Handler) (program : List Byte) : Prop :=
  ∃ data code mapped, readHeaders std native source = .ok (data, code) ∧
    mapDataSegments data source emulator = .ok mapped ∧ totalSize code ≤ vectorMaxSize ∧
    copySegments source 0 code (List.replicate (totalSize code) 0) = .ok program

section Load
variable {Handler : Type} {std : StdSort SegmentHeader.less} {native : Endian}
  {source program : List Byte} {emulator : Emulator Handler}

/-- The outcome of the load is the outcome of decoding the code segments. -/
theorem loadElf_of_holdsProgram (h : HoldsProgram std native source emulator program) :
    (loadElf std native source emulator).1 =
      match decodeInstructions native program with
      | .ok _ => .ok ()
      | .error object => .error (.thrown object) := by
  obtain ⟨data, code, mapped, hheaders, hdata, hsize, hcopy⟩ := h
  obtain ⟨first, rest, hcode, -⟩ := (readHeaders_ok hheaders).codeFirst
  have hmap : mapCodeSegments native code source mapped =
      match decodeInstructions native program with
      | .ok instructions => .ok (mapped.setInstructions instructions)
      | .error object => .error (.thrown object) := by
    unfold mapCodeSegments
    unfold totalSize at hsize hcopy
    cases hlast : code.getLast? with
    | none =>
      rw [hcode] at hlast
      cases List.getLast?_eq_none_iff.mp hlast
    | some last =>
      rw [hlast] at hsize hcopy
      dsimp only at hsize hcopy ⊢
      rw [if_neg (Nat.not_lt.mpr hsize), hcopy]
      rfl
  unfold loadElf
  rw [hheaders]
  dsimp only
  rw [hdata]
  dsimp only
  rw [hmap]
  cases decodeInstructions native program with
  | ok instructions => rfl
  | error object => rfl

/-- What is thrown at code segments whose headers were accepted. -/
inductive CodeRejected (native : Endian) (source : List Byte) (code : List SegmentHeader) :
    Thrown → Prop where
  | tooLong (hsize : vectorMaxSize < totalSize code) :
    CodeRejected native source code (.value .lengthError)
  | undecodable {program : List Byte} {object : Thrown} (hsize : totalSize code ≤ vectorMaxSize)
    (hcopy : copySegments source 0 code (List.replicate (totalSize code) 0) = .ok program)
    (hdecode : decodeInstructions native program = .error object) :
    CodeRejected native source code object

theorem mapCodeSegments_thrown {code : List SegmentHeader} {mapped : Emulator Handler}
    {object : Thrown} (h : mapCodeSegments native code source mapped = .error (.thrown object)) :
    CodeRejected native source code object := by
  unfold mapCodeSegments at h
  split at h
  · cases h
  next last hlast =>
  dsimp only at h
  rw [← totalSize_eq hlast] at h
  split at h
  · next hsize =>
    obtain rfl := Abort.thrown.inj (Except.error.inj h)
    exact .tooLong hsize
  next hsize =>
  rcases bind_error h with hcopy | ⟨program, hcopy, h⟩
  · cases copySegments_error source code hcopy
  split at h
  · cases h
  next thrown hdecode =>
    obtain rfl := Abort.thrown.inj (Except.error.inj h)
    exact .undecodable (Nat.not_lt.mp hsize) hcopy hdecode

/-- A pointer that the load throws was thrown by the decoder. -/
theorem holdsProgram_of_pointer {exception : StdException}
    (h : (loadElf std native source emulator).1 = .error (.thrown (.pointer exception))) :
    ∃ program, HoldsProgram std native source emulator program ∧
      decodeInstructions native program = .error (.pointer exception) := by
  unfold loadElf at h
  split at h
  · next e hheaders =>
    obtain rfl := Except.error.inj h
    exact absurd hheaders (throwsValues_readHeaders native source std exception)
  next data code hheaders =>
  split at h
  · next e hdata =>
    obtain rfl := Except.error.inj h
    exact absurd hdata (throwsValues_mapDataSegments source data emulator exception)
  next mapped hdata =>
  split at h
  · next e hcode =>
    obtain rfl := Except.error.inj h
    cases mapCodeSegments_thrown hcode with
    | undecodable hsize hcopy hdecode =>
      exact ⟨_, ⟨data, code, mapped, hheaders, hdata, hsize, hcopy⟩, hdecode⟩
  · cases h

theorem reported_iff_caught (h : HoldsProgram std native source emulator program) :
    Reported (loadElf std native source emulator).1 ↔
      Caught (decodeInstructions native program) := by
  rw [loadElf_of_holdsProgram h]
  cases decodeInstructions native program with
  | ok instructions => exact ⟨fun _ => caught_ok _, fun _ => .inl ⟨(), rfl⟩⟩
  | error object =>
    cases object with
    | value exception =>
      refine ⟨fun _ thrown hthrown => ?_, fun _ => .inr ⟨exception, rfl⟩⟩
      rw [← Except.error.inj hthrown]
      rfl
    | pointer exception =>
      constructor
      · rintro (⟨a, h⟩ | ⟨exception', h⟩)
        · cases h
        · cases h
      · intro hcaught
        cases hcaught _ rfl

end Load

/-- The decoder's rejection of a program is caught, and so is the loader's of a file that
holds it, exactly when the first rejected word is none that makes `decodeOpFP` throw a
pointer. The loader throws no other pointer. -/
theorem rejections_caught_iff {Handler : Type} (std : StdSort SegmentHeader.less)
    (native : Endian) (emulator : Emulator Handler) :
    (∀ program, Caught (decodeInstructions native program) ↔ ¬UncaughtProgram program) ∧
    (∀ source program, HoldsProgram std native source emulator program →
      (Reported (loadElf std native source emulator).1 ↔ ¬UncaughtProgram program)) ∧
    ∀ source, ThrowsValues (loadElf std native source emulator).1 ↔
      ∀ program, HoldsProgram std native source emulator program → ¬UncaughtProgram program := by
  refine ⟨decodeInstructions_caught_iff native, ?_, ?_⟩
  · intro source program hholds
    rw [reported_iff_caught hholds, decodeInstructions_caught_iff]
  · intro source
    constructor
    · intro hvalues program hholds
      rw [← decodeInstructions_caught_iff native, ← reported_iff_caught hholds]
      rw [loadElf_of_holdsProgram hholds] at hvalues ⊢
      cases hdecode : decodeInstructions native program with
      | ok instructions => exact .inl ⟨(), rfl⟩
      | error object =>
        rw [hdecode] at hvalues
        cases object with
        | value exception => exact .inr ⟨exception, rfl⟩
        | pointer exception => exact absurd rfl (hvalues exception)
    · intro hprograms exception hthrow
      obtain ⟨program, hholds, hdecode⟩ := holdsProgram_of_pointer hthrow
      have hcaught := (decodeInstructions_caught_iff native program).mpr (hprograms program hholds)
      cases hcaught _ hdecode

/-- FMV.X.W with the reserved funct3 2, as a program and as the code of a file. -/
theorem not_caught_reservedMove :
    ¬Caught (decodeInstructions .little [0x53, 0x20, 0x00, 0xe0]) ∧
      ¬Reported (loadElf insertionSort .little
        (elfFile [codeSegment 120] [0x53, 0x20, 0x00, 0xe0])
        (Emulator.new 4096 8 : Emulator Unit)).1 := by
  have hdecode : decodeInstructions .little [0x53, 0x20, 0x00, 0xe0] =
      .error (.pointer (.unknownInstruction 0xe0002053 "OP-FP")) := by decide +kernel
  have hload : (loadElf insertionSort .little
      (elfFile [codeSegment 120] [0x53, 0x20, 0x00, 0xe0])
      (Emulator.new 4096 8 : Emulator Unit)).1 =
        .error (.thrown (.pointer (.unknownInstruction 0xe0002053 "OP-FP"))) := by decide +kernel
  constructor
  · intro hcaught
    cases hcaught _ hdecode
  · rw [hload]
    rintro (⟨a, h⟩ | ⟨exception, h⟩)
    · cases h
    · cases h

end RiscvEmulator.Guarantees
