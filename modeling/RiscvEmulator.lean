import RiscvEmulator.Library.InstructionFormat
import RiscvEmulator.Library.WordBytes
import RiscvEmulator.Library.LittleEndian
import RiscvEmulator.Library.SignedResidue
import RiscvEmulator.Library.Alignment
import RiscvEmulator.Library.ExceptList
import RiscvEmulator.Library.ExceptRelation
import RiscvEmulator.Library.ByteBuffer
import RiscvEmulator.Library.PartialRun
import RiscvEmulator.Library.Recurrence
import RiscvEmulator.Library.WriteHistory
import RiscvEmulator.Library.Ranges
import RiscvEmulator.Source.Bits
import RiscvEmulator.Source.Base
import RiscvEmulator.Source.CheckedBits
import RiscvEmulator.Source.Instruction
import RiscvEmulator.Source.Memory
import RiscvEmulator.Source.Decoder
import RiscvEmulator.Source.DecoderFields
import RiscvEmulator.Source.Arena
import RiscvEmulator.Source.ArrayConstruction
import RiscvEmulator.Source.Emulator
import RiscvEmulator.Source.Elf
import RiscvEmulator.Source.App
import RiscvEmulator.Source.Main
import RiscvEmulator.Spec.Encoding
import RiscvEmulator.Spec.RoundTrip
import RiscvEmulator.Spec.Hart
import RiscvEmulator.Spec.ElfImage
import RiscvEmulator.Spec.ElfFile
import RiscvEmulator.Spec.ElfLoadable
import RiscvEmulator.Spec.ElfSegments
import RiscvEmulator.Guarantees.MemoryLaws
import RiscvEmulator.Guarantees.FloatControl
import RiscvEmulator.Guarantees.BitFields
import RiscvEmulator.Guarantees.DecoderRows
import RiscvEmulator.Guarantees.DecoderPrograms
import RiscvEmulator.Guarantees.ProgramComposition
import RiscvEmulator.Guarantees.IntegerRoundTrip
import RiscvEmulator.Guarantees.CanonicalWords
import RiscvEmulator.Guarantees.FloatRoundTrip
import RiscvEmulator.Guarantees.CsrNumbers
import RiscvEmulator.Guarantees.FloatOperands
import RiscvEmulator.Guarantees.ShiftAmounts
import RiscvEmulator.Guarantees.DecoderOutcomes
import RiscvEmulator.Guarantees.DecodedFields
import RiscvEmulator.Guarantees.DecodedRegisters
import RiscvEmulator.Guarantees.DecoderThrows
import RiscvEmulator.Guarantees.DecoderReports
import RiscvEmulator.Guarantees.Reassembly
import RiscvEmulator.Guarantees.ProgramCounter
import RiscvEmulator.Guarantees.LinkRegister
import RiscvEmulator.Guarantees.RegisterHistory
import RiscvEmulator.Guarantees.Lockstep
import RiscvEmulator.Guarantees.FetchAlignment
import RiscvEmulator.Guarantees.PreciseFaults
import RiscvEmulator.Guarantees.BranchDecisions
import RiscvEmulator.Guarantees.ForwardPrograms
import RiscvEmulator.Guarantees.DisplacedTransfers
import RiscvEmulator.Guarantees.SyscallRegistry
import RiscvEmulator.Guarantees.SyscallDispatch
import RiscvEmulator.Guarantees.ArenaAllocations
import RiscvEmulator.Guarantees.ArenaQuery
import RiscvEmulator.Guarantees.ArrayAllocation
import RiscvEmulator.Guarantees.ArenaCursor
import RiscvEmulator.Guarantees.ConstructionRollback
import RiscvEmulator.Guarantees.ElfHeaders
import RiscvEmulator.Guarantees.ElfRanges
import RiscvEmulator.Guarantees.ElfMapping
import RiscvEmulator.Guarantees.ElfImage
import RiscvEmulator.Guarantees.ElfThrows
import RiscvEmulator.Guarantees.ElfFailure
import RiscvEmulator.Guarantees.ElfBounds
import RiscvEmulator.Guarantees.ElfDefined
import RiscvEmulator.Guarantees.ElfOrder
import RiscvEmulator.Guarantees.ElfAcceptance
import RiscvEmulator.Guarantees.ElfInvariance
import RiscvEmulator.Guarantees.ElfLink
import RiscvEmulator.Guarantees.ElfRelink
import RiscvEmulator.Guarantees.AssembledPrograms
import RiscvEmulator.Guarantees.LoadHistory
import RiscvEmulator.Guarantees.Startup
import RiscvEmulator.Guarantees.StartConditions
import RiscvEmulator.Guarantees.StartupReports
import RiscvEmulator.Guarantees.Session
import RiscvEmulator.Guarantees.StartedPrograms
