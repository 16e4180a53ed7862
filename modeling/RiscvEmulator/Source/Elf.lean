import RiscvEmulator.Source.Decoder
import RiscvEmulator.Source.Emulator

/-!
# The ELF loader

Embeds src/riscv/elf.cpp. Offsets and sizes are 64-bit words and their sums wrap, as in
the source. A read outside the file, or a write outside the buffer a span points into,
is undefined behaviour. `std::sort` is a parameter: any function that returns a
permutation sorted by the comparator. The host's memory is taken to be large enough for
the code vector, whose size still has the limit of `std::vector`.
-/
namespace RiscvEmulator.Source
open Library.ByteBuffer Library.ExceptList

/-- `std::sort` with the comparator `less`, which need not be stable. -/
structure StdSort {α : Type} (less : α → α → Bool) where
  sort : List α → List α
  perm : ∀ items, (sort items).Perm items
  sorted : ∀ items, (sort items).Pairwise fun a b => less b a = false

/-- `*ptr`. -/
def dereference (ptr : List Byte) : Except Abort Byte :=
  match ptr with
  | b0 :: _ => .ok b0
  | [] => .error .undefinedBehaviour

structure ElfHeader where
  magic : BitVec 32 := 0
  elfClass : BitVec 8 := 0
  data : BitVec 8 := 0
  version : BitVec 8 := 0
  osABI : BitVec 8 := 0
  type : BitVec 16 := 0
  machine : BitVec 16 := 0
  entry : BitVec 64 := 0
  programHeaderOffset : BitVec 64 := 0
  programHeaderEntrySize : BitVec 16 := 0
  programHeaderEntryCount : BitVec 16 := 0
  deriving DecidableEq, Repr

namespace ElfHeader

def elfHeaderSize : Nat := 64
def elfMagic : BitVec 32 := 0x464c457f
def elfClass64 : BitVec 8 := 2
def elfDataLittleEndian : BitVec 8 := 1
def elfVersion1 : BitVec 8 := 1
def osABISystemV : BitVec 8 := 0
def elfTypeExecutable : BitVec 16 := 2
def elfMachineRISCV : BitVec 16 := 243
def entrypointStart : BitVec 64 := 0
def elfProgramHeaderEntrySize64 : BitVec 16 := 56

def validate (header : ElfHeader) (source : List Byte) : Except Abort Unit :=
  if ¬(header.magic = elfMagic ∧ header.elfClass = elfClass64 ∧ header.data = elfDataLittleEndian ∧
      header.version = elfVersion1 ∧ header.osABI = osABISystemV ∧
      header.type = elfTypeExecutable ∧ header.machine = elfMachineRISCV ∧
      header.programHeaderEntrySize = elfProgramHeaderEntrySize64) then
    throwValue (.runtimeError "invalid ELF executable header")
  else if header.entry ≠ entrypointStart then
    throwValue (.runtimeError "ELF executable entry point must be 0")
  else if (header.programHeaderOffset + header.programHeaderEntryCount.setWidth 64 *
      header.programHeaderEntrySize.setWidth 64).toNat > source.length then
    throwValue (.runtimeError "ELF program headers are out of file bounds")
  else .ok ()

def read (native : Endian) (source : List Byte) : Except Abort ElfHeader :=
  if source.length < elfHeaderSize then throwValue (.runtimeError "ELF file too small")
  else do
    let magic ← loadU32 native (source.drop 0)
    let elfClass ← dereference (source.drop 4)
    let data ← dereference (source.drop 5)
    let version ← dereference (source.drop 6)
    let osABI ← dereference (source.drop 7)
    let type ← loadU16 native (source.drop 16)
    let machine ← loadU16 native (source.drop 18)
    let entry ← loadU64 native (source.drop 24)
    let programHeaderOffset ← loadU64 native (source.drop 32)
    let programHeaderEntrySize ← loadU16 native (source.drop 54)
    let programHeaderEntryCount ← loadU16 native (source.drop 56)
    let header : ElfHeader :=
      { magic, elfClass, data, version, osABI, type, machine, entry, programHeaderOffset,
        programHeaderEntrySize, programHeaderEntryCount }
    header.validate source
    return header

end ElfHeader

structure SegmentHeader where
  type : BitVec 32 := 0
  flags : BitVec 32 := 0
  sourceStart : BitVec 64 := 0
  destinationStart : BitVec 64 := 0
  sourceSize : BitVec 64 := 0
  destinationSize : BitVec 64 := 0
  deriving DecidableEq, Repr

namespace SegmentHeader

def typeLoad : BitVec 32 := 1
def flagExecutable : BitVec 32 := 1

def sourceEnd (header : SegmentHeader) : BitVec 64 := header.sourceStart + header.sourceSize

def destinationEnd (header : SegmentHeader) : BitVec 64 :=
  header.destinationStart + header.destinationSize

def read (native : Endian) (source : List Byte) (offset : BitVec 64) :
    Except Abort SegmentHeader := do
  let header := source.drop offset.toNat
  let type ← loadU32 native (header.drop 0)
  let flags ← loadU32 native (header.drop 4)
  let sourceStart ← loadU64 native (header.drop 8)
  let destinationStart ← loadU64 native (header.drop 16)
  let sourceSize ← loadU64 native (header.drop 32)
  let destinationSize ← loadU64 native (header.drop 40)
  return { type, flags, sourceStart, destinationStart, sourceSize, destinationSize }

/-- The comparator of `sortHeadersBySegmentAddresses`. -/
def less (a b : SegmentHeader) : Bool := a.destinationStart < b.destinationStart

end SegmentHeader

/-- The offset of entry `i` of the program header table. -/
def entryOffset (elfHeader : ElfHeader) (i : Nat) : BitVec 64 :=
  elfHeader.programHeaderOffset +
    BitVec.ofNat 64 i * elfHeader.programHeaderEntrySize.setWidth 64

/-- The loop of `readSegmentHeaders`, from entry `i` on, with `remaining` entries to go. -/
def readSegmentHeadersLoop (native : Endian) (elfHeader : ElfHeader) (source : List Byte) :
    (remaining i : Nat) → (dataHeaders codeHeaders : List SegmentHeader) →
      Except Abort (List SegmentHeader × List SegmentHeader)
  | 0, _, dataHeaders, codeHeaders => .ok (dataHeaders, codeHeaders)
  | remaining + 1, i, dataHeaders, codeHeaders => do
    let header ← SegmentHeader.read native source (entryOffset elfHeader i)
    if header.type ≠ SegmentHeader.typeLoad then
      readSegmentHeadersLoop native elfHeader source remaining (i + 1) dataHeaders codeHeaders
    else if header.sourceSize = 0 ∧ header.destinationSize = 0 then
      readSegmentHeadersLoop native elfHeader source remaining (i + 1) dataHeaders codeHeaders
    else if header.sourceEnd.toNat > source.length then
      throwValue (.runtimeError "ELF segment is out of file bounds")
    else if header.flags &&& SegmentHeader.flagExecutable ≠ 0 then
      readSegmentHeadersLoop native elfHeader source remaining (i + 1) dataHeaders
        (codeHeaders ++ [header])
    else
      readSegmentHeadersLoop native elfHeader source remaining (i + 1) (dataHeaders ++ [header])
        codeHeaders

/-- Returns the data and the code headers, the source's output parameters. -/
def readSegmentHeaders (native : Endian) (elfHeader : ElfHeader) (source : List Byte) :
    Except Abort (List SegmentHeader × List SegmentHeader) :=
  readSegmentHeadersLoop native elfHeader source elfHeader.programHeaderEntryCount.toNat 0 [] []

def sortHeadersBySegmentAddresses (std : StdSort SegmentHeader.less)
    (headers : List SegmentHeader) : List SegmentHeader := std.sort headers

/-- The loops that compare each header with the next one. -/
def anyNeighbours (fails : SegmentHeader → SegmentHeader → Bool) : List SegmentHeader → Bool
  | header :: next :: headers => fails header next || anyNeighbours fails (next :: headers)
  | _ => false

def validateDataHeaders (headers : List SegmentHeader) : Except Abort Unit :=
  if headers.any fun header => header.sourceSize > header.destinationSize then
    throwValue (.runtimeError "ELF data segments must not be truncated when loaded into memory")
  else if anyNeighbours (fun header next => header.destinationEnd > next.destinationStart)
      headers then
    throwValue (.runtimeError "ELF data segments must not overlap")
  else .ok ()

def validateCodeHeaders (headers : List SegmentHeader) : Except Abort Unit :=
  match headers with
  | [] => throwValue (.runtimeError "ELF executable contains no code segments")
  | first :: _ =>
    if headers.any fun header => header.destinationSize != header.sourceSize then
      throwValue (.runtimeError
        "ELF code segments must not be truncated or padded when loaded into memory")
    else if first.destinationStart ≠ 0 then
      throwValue (.runtimeError
        "ELF code segments must be placed into memory starting at offset 0")
    else if anyNeighbours (fun header next => header.destinationEnd != next.destinationStart)
        headers then
      throwValue (.runtimeError "ELF code segments must be contiguous")
    else .ok ()

/-- `destination.data()` is `origin` bytes into `buffer`. -/
def copySegments (source : List Byte) (origin : Nat) :
    List SegmentHeader → (buffer : List Byte) → Except Abort (List Byte)
  | [], buffer => .ok buffer
  | header :: headers, buffer =>
    match readAt source header.sourceStart.toNat header.sourceSize.toNat with
    | none => .error .undefinedBehaviour
    | some bytes =>
      match writeAt buffer (origin + header.destinationStart.toNat) bytes with
      | none => .error .undefinedBehaviour
      | some buffer => copySegments source origin headers buffer

theorem length_copySegments {source buffer buffer' : List Byte} {origin : Nat}
    {headers : List SegmentHeader} (h : copySegments source origin headers buffer = .ok buffer') :
    buffer'.length = buffer.length := by
  induction headers generalizing buffer with
  | nil => rw [← Except.ok.inj h]
  | cons header headers ih =>
    unfold copySegments at h
    split at h
    · cases h
    · split at h
      · cases h
      · next hwrite => rw [ih h, length_of_writeAt hwrite]

/-- Copies the segments into the arena's storage. -/
def Arena.copySegments (arena : Arena) (source : List Byte) (origin : Nat)
    (headers : List SegmentHeader) : Except Abort Arena :=
  match h : Source.copySegments source origin headers arena.storage with
  | .ok storage => .ok { arena with
      storage := storage
      free_le := by
        rw [length_copySegments h]
        exact arena.free_le }
  | .error e => .error e

/-- The `try` block of `mapDataSegments` with its handler. -/
def allocateDataMemory (memory : Arena) (totalDataSize : BitVec 64) :
    Except Abort (Nat × Arena) :=
  match memory.allocateArray ItemType.byte totalDataSize with
  | .error (.thrown (.value .badAlloc)) =>
    throwValue (.runtimeError "could not allocate emulator memory to load ELF data segments")
  | result => result

section Map
variable {Handler : Type}

def mapDataSegments (headers : List SegmentHeader) (source : List Byte)
    (emulator : Emulator Handler) : Except Abort (Emulator Handler) :=
  match headers.getLast? with
  | none => .ok emulator
  | some last => do
    let totalDataSize := last.destinationEnd
    let (origin, memory) ← allocateDataMemory emulator.memory totalDataSize
    let memory ← memory.copySegments source origin headers
    return { emulator with memory := memory }

/-- `std::vector<uint8_t>::max_size()`. -/
def vectorMaxSize : Nat := 2 ^ 63 - 1

def mapCodeSegments (native : Endian) (headers : List SegmentHeader) (source : List Byte)
    (emulator : Emulator Handler) : Except Abort (Emulator Handler) :=
  match headers.getLast? with
  | none => .error .undefinedBehaviour
  | some last => do
    let totalCodeSize := last.destinationEnd.toNat
    if totalCodeSize > vectorMaxSize then throwValue .lengthError
    else
      let codeMemory ← copySegments source 0 headers (List.replicate totalCodeSize 0)
      match decodeInstructions native codeMemory with
      | .ok instructions => return emulator.setInstructions instructions
      | .error object => .error (.thrown object)

/-- The part of `loadElf` that leaves the emulator alone: the sorted and validated data and
code headers. -/
def readHeaders (std : StdSort SegmentHeader.less) (native : Endian) (source : List Byte) :
    Except Abort (List SegmentHeader × List SegmentHeader) := do
  let elfHeader ← ElfHeader.read native source
  let (dataHeaders, codeHeaders) ← readSegmentHeaders native elfHeader source
  let dataHeaders := sortHeadersBySegmentAddresses std dataHeaders
  let codeHeaders := sortHeadersBySegmentAddresses std codeHeaders
  validateDataHeaders dataHeaders
  validateCodeHeaders codeHeaders
  return (dataHeaders, codeHeaders)

/-- Returns the emulator as the call leaves it, also when it throws: the data segments
stay mapped when the code segments are rejected. -/
def loadElf (std : StdSort SegmentHeader.less) (native : Endian) (source : List Byte)
    (emulator : Emulator Handler) : Except Abort Unit × Emulator Handler :=
  match readHeaders std native source with
  | .error e => (.error e, emulator)
  | .ok (dataHeaders, codeHeaders) =>
    match mapDataSegments dataHeaders source emulator with
    | .error e => (.error e, emulator)
    | .ok mapped =>
      match mapCodeSegments native codeHeaders source mapped with
      | .error e => (.error e, mapped)
      | .ok loaded => (.ok (), loaded)

end Map
end RiscvEmulator.Source
