import RiscvEmulator.Library.Ranges
import RiscvEmulator.Source.Elf

/-!
# The program image of an ELF file

What a loaded file is meant to look like, stated over the PT_LOAD entries of its program
header table in any order and with exact ends, not ends modulo `2 ^ 64`.
-/
namespace RiscvEmulator.Spec
open Source Library.Ranges

/-- The entries of the program header table. -/
def programHeaders (native : Endian) (source : List Byte) : List SegmentHeader :=
  match ElfHeader.read native source with
  | .error _ => []
  | .ok elfHeader =>
    (List.range elfHeader.programHeaderEntryCount.toNat).filterMap fun i =>
      (SegmentHeader.read native source (entryOffset elfHeader i)).toOption

def loadHeaders (native : Endian) (source : List Byte) : List SegmentHeader :=
  (programHeaders native source).filter fun header => header.type = SegmentHeader.typeLoad

def isExecutable (header : SegmentHeader) : Bool :=
  header.flags &&& SegmentHeader.flagExecutable ≠ 0

def isEmpty (header : SegmentHeader) : Bool := header.sourceSize = 0 ∧ header.destinationSize = 0

/-- The executable PT_LOAD entries. -/
def codeHeaders (native : Endian) (source : List Byte) : List SegmentHeader :=
  (loadHeaders native source).filter isExecutable

/-- The other PT_LOAD entries. -/
def dataHeaders (native : Endian) (source : List Byte) : List SegmentHeader :=
  (loadHeaders native source).filter fun header => !isExecutable header

/-- `[destinationStart, destinationStart + destinationSize)`, with the exact sum. -/
def destinationRange (header : SegmentHeader) : Range where
  start := header.destinationStart.toNat
  stop := header.destinationStart.toNat + header.destinationSize.toNat
  ordered := Nat.le_add_right _ _

@[simp] theorem destinationRange_start (header : SegmentHeader) :
    (destinationRange header).start = header.destinationStart.toNat := rfl

@[simp] theorem destinationRange_stop (header : SegmentHeader) :
    (destinationRange header).stop =
      header.destinationStart.toNat + header.destinationSize.toNat := rfl

/-- The segment's bytes in the file. -/
def fileBytes (source : List Byte) (header : SegmentHeader) : List Byte :=
  (source.drop header.sourceStart.toNat).take header.sourceSize.toNat

/-- The size of the buffer that `mapDataSegments` or `mapCodeSegments` allocates. -/
def totalSize (headers : List SegmentHeader) : Nat :=
  match headers.getLast? with
  | none => 0
  | some last => last.destinationEnd.toNat

/-- What the validators are there to ensure, of the sorted headers they accept. -/
structure DestinationsSound (dataHeaders codeHeaders : List SegmentHeader) : Prop where
  dataDisjoint : dataHeaders.Pairwise fun a b =>
    (destinationRange a).Disjoint (destinationRange b)
  dataInside : ∀ header ∈ dataHeaders, (destinationRange header).stop ≤ totalSize dataHeaders
  codeTiles : ∀ i,
    codeHeaders.countP (fun header => decide ((destinationRange header).Contains i)) =
      if i < totalSize codeHeaders then 1 else 0
  dataWrites : ∀ header ∈ dataHeaders,
    header.destinationStart.toNat + header.sourceSize.toNat ≤ totalSize dataHeaders
  codeWrites : ∀ header ∈ codeHeaders,
    header.destinationStart.toNat + header.sourceSize.toNat ≤ totalSize codeHeaders

/-- Neither end of the segment wraps. -/
structure NoWrap (header : SegmentHeader) : Prop where
  source : header.sourceStart.toNat + header.sourceSize.toNat < 2 ^ 64
  destination : header.destinationStart.toNat + header.destinationSize.toNat < 2 ^ 64

/-- Where the last data segment ends. -/
def totalDataSize (native : Endian) (source : List Byte) : Nat :=
  (((dataHeaders native source).filter fun header => !isEmpty header).map fun header =>
    (destinationRange header).stop).foldr max 0

/-- The order of the segments in the guest's address space. -/
def AddressOrder (headers : List SegmentHeader) : Prop :=
  headers.Pairwise fun a b => a.destinationStart.toNat ≤ b.destinationStart.toNat

/-- `loaded` is `emulator` with the file's program image loaded. -/
structure LoadedImage {Handler : Type} (native : Endian) (source : List Byte)
    (emulator loaded : Emulator Handler) : Prop where
  bytes : ∀ header ∈ dataHeaders native source, ∀ k, k < header.sourceSize.toNat →
    ∃ byte, source[header.sourceStart.toNat + k]? = some byte ∧
      loaded.memory.raw[header.destinationStart.toNat + k]? = some byte
  zeros : ∀ header ∈ dataHeaders native source, ∀ k, header.sourceSize.toNat ≤ k →
    k < header.destinationSize.toNat →
      loaded.memory.raw[header.destinationStart.toNat + k]? = some 0
  gaps : ∀ i, i < totalDataSize native source →
    (∀ header ∈ dataHeaders native source, ¬(destinationRange header).Contains i) →
      loaded.memory.raw[i]? = some 0
  unchanged : ∀ i, totalDataSize native source ≤ i →
    loaded.memory.raw[i]? = emulator.memory.raw[i]?
  instructions : ∀ headers, headers.Perm (codeHeaders native source) → AddressOrder headers →
    decodeInstructions native (headers.flatMap (fileBytes source)) = .ok loaded.instructions

end RiscvEmulator.Spec
