import RiscvEmulator.Spec.ElfFile
import RiscvEmulator.Spec.ElfImage

/-!
# Segments apart from their file

What a PT_LOAD entry stands for once its bytes are taken out of the file, and the file
that a list of segments makes: the headers, then the bytes of the segments in a row.
-/
namespace RiscvEmulator.Spec
open Source Library.Ranges

structure Segment where
  executable : Bool
  start : BitVec 64
  bytes : List Byte
  size : BitVec 64
  deriving DecidableEq, Repr

def segmentOf (source : List Byte) (header : SegmentHeader) : Segment where
  executable := isExecutable header
  start := header.destinationStart
  bytes := fileBytes source header
  size := header.destinationSize

/-- The segments of a file, in the order of its program header table. -/
def segmentsOf (native : Endian) (source : List Byte) : List Segment :=
  (loadHeaders native source).map (segmentOf source)

namespace Segment

/-- A segment with no byte in the file and none in the memory, which the loader drops. -/
def isEmpty (segment : Segment) : Bool := segment.bytes.isEmpty ∧ segment.size = 0

def range (segment : Segment) : Range where
  start := segment.start.toNat
  stop := segment.start.toNat + segment.size.toNat
  ordered := Nat.le_add_right _ _

/-- The program header of a segment whose bytes are at `offset`; code can be read and run,
data can be read and written. -/
def header (segment : Segment) (offset : Nat) : SegmentHeader where
  type := SegmentHeader.typeLoad
  flags := if segment.executable then 5 else 6
  sourceStart := BitVec.ofNat 64 offset
  destinationStart := segment.start
  sourceSize := BitVec.ofNat 64 segment.bytes.length
  destinationSize := segment.size

end Segment

/-- The program headers of segments whose bytes follow one another from `offset` on. -/
def headersFrom (offset : Nat) : List Segment → List SegmentHeader
  | [] => []
  | segment :: segments =>
    segment.header offset :: headersFrom (offset + segment.bytes.length) segments

/-- The segments that the loader maps: `executable` selects code or data. -/
def kept (executable : Bool) (segments : List Segment) : List Segment :=
  segments.filter fun segment => segment.executable = executable ∧ !segment.isEmpty

def NoOverlap (data : List Segment) : Prop :=
  data.Pairwise fun a b => a.range.Disjoint b.range

/-- Every place below some size is in one of the segments, and no other place is. -/
def Tiles (code : List Segment) : Prop :=
  ∃ size, ∀ i, code.countP (fun segment => decide (segment.range.Contains i)) =
    if i < size then 1 else 0

section Checks
open Classical

/-- What the loader checks of the data segments, of which no order is known. -/
noncomputable def checkData (data : List Segment) : Except Abort Unit :=
  if ∃ segment ∈ data, segment.size.toNat < segment.bytes.length then
    throwValue (.runtimeError "ELF data segments must not be truncated when loaded into memory")
  else if ¬NoOverlap data then
    throwValue (.runtimeError "ELF data segments must not overlap")
  else .ok ()

/-- What the loader checks of the code segments, of which no order is known. -/
noncomputable def checkCode (code : List Segment) : Except Abort Unit :=
  if code = [] then throwValue (.runtimeError "ELF executable contains no code segments")
  else if ∃ segment ∈ code, segment.size.toNat ≠ segment.bytes.length then
    throwValue (.runtimeError
      "ELF code segments must not be truncated or padded when loaded into memory")
  else if ∀ segment ∈ code, segment.start ≠ 0 then
    throwValue (.runtimeError
      "ELF code segments must be placed into memory starting at offset 0")
  else if ¬Tiles code then
    throwValue (.runtimeError "ELF code segments must be contiguous")
  else .ok ()

end Checks

/-- The file of the segments. -/
def link (segments : List Segment) : List Byte :=
  elfFile (headersFrom (64 + 56 * segments.length) segments) (segments.flatMap Segment.bytes)

end RiscvEmulator.Spec
