import Mathlib.Data.List.Sort
import RiscvEmulator.Source.Elf

/-!
# Writing an ELF file

The smallest ELF file the loader can accept with given segment headers: the ELF header,
the program header table and, after it, the bytes the segments refer to. `insertionSort`
is a possible `std::sort`.
-/
namespace RiscvEmulator.Spec
open Source

/-- The `count` bytes of `value`, the lowest first. -/
def littleEndian (count value : Nat) : List Byte :=
  (List.range count).map fun i => BitVec.ofNat 8 (value >>> (8 * i))

def elfHeaderBytes (segmentCount : Nat) : List Byte :=
  littleEndian 4 0x464c457f ++ [2, 1, 1, 0] ++ littleEndian 8 0 ++ littleEndian 2 2 ++
    littleEndian 2 243 ++ littleEndian 4 1 ++ littleEndian 8 0 ++ littleEndian 8 64 ++
    littleEndian 8 0 ++ littleEndian 4 0 ++ littleEndian 2 64 ++ littleEndian 2 56 ++
    littleEndian 2 segmentCount ++ littleEndian 6 0

/-- The physical address and the alignment, which the loader does not read, are 0. -/
def segmentHeaderBytes (header : SegmentHeader) : List Byte :=
  littleEndian 4 header.type.toNat ++ littleEndian 4 header.flags.toNat ++
    littleEndian 8 header.sourceStart.toNat ++ littleEndian 8 header.destinationStart.toNat ++
    littleEndian 8 0 ++ littleEndian 8 header.sourceSize.toNat ++
    littleEndian 8 header.destinationSize.toNat ++ littleEndian 8 0

def elfFile (headers : List SegmentHeader) (body : List Byte) : List Byte :=
  elfHeaderBytes headers.length ++ headers.flatMap segmentHeaderBytes ++ body

/-- A header that does not come after the other in the comparator's order. -/
def NotAfter (a b : SegmentHeader) : Prop := SegmentHeader.less b a = false

instance : DecidableRel NotAfter := fun a b =>
  inferInstanceAs (Decidable (SegmentHeader.less b a = false))

theorem notAfter_iff {a b : SegmentHeader} :
    NotAfter a b ↔ a.destinationStart ≤ b.destinationStart := by
  unfold NotAfter SegmentHeader.less
  rw [decide_eq_false_iff_not, BitVec.not_lt]

instance : Std.Total NotAfter where
  total a b := by
    rw [notAfter_iff, notAfter_iff]
    exact BitVec.le_total _ _

instance : IsTrans SegmentHeader NotAfter where
  trans a b c := by
    rw [notAfter_iff, notAfter_iff, notAfter_iff]
    exact BitVec.le_trans

def insertionSort : StdSort SegmentHeader.less where
  sort := List.insertionSort NotAfter
  perm := List.perm_insertionSort NotAfter
  sorted := List.pairwise_insertionSort NotAfter

end RiscvEmulator.Spec
