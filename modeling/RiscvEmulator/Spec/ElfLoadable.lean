import RiscvEmulator.Library.LittleEndian
import RiscvEmulator.Spec.ElfImage

/-!
# The ELF files an emulator can load

What has to hold of a file, and of the room left in the guest memory, for the program in
it to be loaded. The order of the program headers plays no part: data segments share no
byte of the guest's memory, and the code segments together fill the code memory.
-/
namespace RiscvEmulator.Spec
open Source Library.LittleEndian Library.Ranges

/-- The number that `count` bytes of the file from `start` on stand for. -/
def field (source : List Byte) (start count : Nat) : Nat :=
  number ((source.drop start).take count)

/-- The ELF header of an executable for a 64-bit little-endian RISC-V, version 1, System V,
that starts at address 0. -/
structure ExecutableHeader (source : List Byte) : Prop where
  size : 64 ≤ source.length
  ident : source.take 8 = [0x7f, 0x45, 0x4c, 0x46, 2, 1, 1, 0]
  type : field source 16 2 = 2
  machine : field source 18 2 = 243
  entry : field source 24 8 = 0
  entrySize : field source 54 2 = 56
  table : field source 32 8 + 56 * field source 56 2 ≤ source.length

/-- The code segments, taken in the order of the guest's addresses, hold `program`. -/
def HasProgram (native : Endian) (source program : List Byte) : Prop :=
  ∃ headers, headers.Perm (codeHeaders native source) ∧ AddressOrder headers ∧
    headers.flatMap (fileBytes source) = program

structure Loadable (native : Endian) (source : List Byte) (memory : Arena) : Prop where
  header : ExecutableHeader source
  inside : ∀ header ∈ loadHeaders native source, isEmpty header = false →
    header.sourceStart.toNat + header.sourceSize.toNat ≤ source.length
  dataFits : ∀ header ∈ dataHeaders native source,
    header.sourceSize.toNat ≤ header.destinationSize.toNat
  dataDisjoint : (dataHeaders native source).Pairwise fun a b =>
    (destinationRange a).Disjoint (destinationRange b)
  codeExact : ∀ header ∈ codeHeaders native source, header.destinationSize = header.sourceSize
  codeTiles : ∃ size, 0 < size ∧ size ≤ vectorMaxSize ∧ ∀ i,
    (codeHeaders native source).countP (fun header =>
      decide ((destinationRange header).Contains i)) = if i < size then 1 else 0
  decodes : ∃ program instructions, HasProgram native source program ∧
    decodeInstructions native program = .ok instructions
  room : totalDataSize native source ≤ memory.getFreeSpace

end RiscvEmulator.Spec
