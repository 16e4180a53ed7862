import RiscvEmulator.Guarantees.ElfDefined
import RiscvEmulator.Guarantees.ElfThrows
import RiscvEmulator.Guarantees.Startup
import RiscvEmulator.Source.Main

/-!
# How a start ends

`SDL_AppInit` catches what the constructor of the application throws by value. If argparse
keeps to its documentation and the file's offsets do not wrap, the start has a meaning
whatever the arguments, the host and the file are: it succeeds, or it reports one error
and leaves no application, or the pointer that the decoder throws at a word of
`UncaughtWord` gets past the handler.
-/
namespace RiscvEmulator.Guarantees
open Source Spec Library ByteBuffer ExceptList

variable {Handler : Type} {host : Host} {std : StdSort SegmentHeader.less} {native : Endian}
  {args : List String}

/-- `nargs(2)` stores two numbers, and what argparse throws it throws by value. -/
structure ParsesArguments (host : Host) : Prop where
  two : ∀ args parsed, host.parseArgs args = .ok parsed → parsed.framebufferSize.length = 2
  throws : ∀ args e, host.parseArgs args = .error e → ∃ exception, e = .thrown (.value exception)

/-- The offsets of the file do not wrap. -/
structure OffsetsExact (native : Endian) (program : List Byte) : Prop where
  table : TableInside native program
  segments : ∀ header ∈ loadHeaders native program, NoWrap header

/-- The arguments name a file that opens as `program`. -/
def Opens (host : Host) (args : List String) (program : List Byte) : Prop :=
  ∃ options, Options.parse host args = .ok options ∧
    host.openFile options.programPath = some program

/-- The error is an exception thrown by value. -/
def IsValue (e : Abort) : Prop := ∃ exception, e = .thrown (.value exception)

/-- The error is the pointer thrown at a word of the program in the file. -/
def EscapesFrom (std : StdSort SegmentHeader.less) (native : Endian) (Handler : Type)
    (host : Host) (args : List String) (e : Abort) : Prop :=
  ∃ (exception : StdException) (program code : List Byte) (emulator : Emulator Handler),
    e = .thrown (.pointer exception) ∧ Opens host args program ∧
      HoldsProgram std native program emulator code ∧ UncaughtProgram code

section Stages

theorem isValue_throwValue {α : Type} {exception : StdException} {e : Abort}
    (h : (throwValue exception : Except Abort α) = .error e) : IsValue e :=
  ⟨exception, (Except.error.inj h).symm⟩

theorem elementAt_error {α : Type} {items : List α} {i : Nat} {e : Abort} (hi : i < items.length)
    (h : elementAt items i = .error e) : IsValue e := by
  simp [elementAt, List.getElem?_eq_getElem hi] at h

theorem optionsParse_error (hhost : ParsesArguments host) {e : Abort}
    (h : Options.parse host args = .error e) : IsValue e := by
  unfold Options.parse at h
  rcases bind_error h with hparse | ⟨parsed, hparse, h⟩
  · exact hhost.throws args e hparse
  have htwo := hhost.two args parsed hparse
  split at h
  · exact isValue_throwValue h
  rcases bind_error h with hwidth | ⟨width, -, h⟩
  · exact elementAt_error (by omega) hwidth
  split at h
  · exact isValue_throwValue h
  rcases bind_error h with hheight | ⟨height, -, h⟩
  · exact elementAt_error (by omega) hheight
  split at h
  · exact isValue_throwValue h
  · cases h

theorem newEmulator_error {memorySize : BitVec 64} {e : Abort}
    (h : (newEmulator host memorySize : Except Abort (Emulator Handler)) = .error e) :
    IsValue e := by
  unfold newEmulator at h
  split at h
  · exact isValue_throwValue h
  split at h
  · cases h
  · exact isValue_throwValue h

theorem rendererNew_error {width height : BitVec 32} {e : Abort}
    (h : Renderer.new host width height = .error e) : IsValue e := by
  unfold Renderer.new at h
  split at h
  · exact isValue_throwValue h
  split at h
  · exact isValue_throwValue h
  split at h
  · exact isValue_throwValue h
  · cases h

theorem readProgramFile_error {path : String} {e : Abort}
    (h : readProgramFile host path = .error e) : IsValue e := by
  unfold readProgramFile at h
  split at h
  · cases h
  · exact isValue_throwValue h

/-- The load of a file whose offsets are exact throws a value, or the decoder's pointer. -/
theorem loadElf_error {program : List Byte} {emulator : Emulator Handler} {e : Abort}
    (hexact : OffsetsExact native program)
    (h : (loadElf std native program emulator).1 = .error e) :
    IsValue e ∨ ∃ exception code, e = .thrown (.pointer exception) ∧
      HoldsProgram std native program emulator code ∧ UncaughtProgram code := by
  cases e with
  | undefinedBehaviour => exact absurd h (loadElf_defined hexact.table hexact.segments)
  | thrown object =>
    cases object with
    | value exception => exact .inl ⟨exception, rfl⟩
    | pointer exception =>
      obtain ⟨code, hholds, hdecode⟩ := holdsProgram_of_pointer h
      refine .inr ⟨exception, code, rfl, hholds, ?_⟩
      by_contra hcaught
      have hvalue := (decodeInstructions_caught_iff native code).mpr hcaught _ hdecode
      cases hvalue

/-- The framebuffer is allocated, or there is no room for it and the handler throws. -/
theorem allocateFramebuffer_error {memory : Arena} {itemCount : BitVec 64} {e : Abort}
    (hexact : 4 * itemCount.toNat < 2 ^ 64) (h : allocateFramebuffer memory itemCount = .error e) :
    IsValue e := by
  unfold allocateFramebuffer at h
  by_cases hroom : HasRoom memory (ItemType.pixel.size * itemCount.toNat % 2 ^ 64)
      ItemType.pixel.alignment
  · have hsize : ItemType.pixel.size * itemCount.toNat < 2 ^ 64 := hexact
    obtain ⟨offset, allocated, hallocate, -⟩ := allocateArray_of_hasRoom hsize hroom
    rw [hallocate] at h
    cases h
  · rw [allocateArray_of_no_room hroom] at h
    exact isValue_throwValue h

/-- What the constructor of the application throws. -/
theorem appNew_error (hhost : ParsesArguments host)
    (hfile : ∀ program, Opens host args program → OffsetsExact native program)
    {e : Abort} (h : (App.new host std native args : Except Abort (App Handler)) = .error e) :
    IsValue e ∨ EscapesFrom std native Handler host args e := by
  unfold App.new at h
  rcases bind_error h with hoptions | ⟨options, hoptions, h⟩
  · exact .inl (optionsParse_error hhost hoptions)
  rcases bind_error h with hemulator | ⟨emulator, -, h⟩
  · exact .inl (newEmulator_error hemulator)
  rcases bind_error h with hrenderer | ⟨renderer, -, h⟩
  · exact .inl (rendererNew_error hrenderer)
  rcases bind_error h with hprogram | ⟨program, hprogram, h⟩
  · exact .inl (readProgramFile_error hprogram)
  have hopen : Opens host args program := ⟨options, hoptions, readProgramFile_ok hprogram⟩
  dsimp only at h
  rcases bind_error h with hload | ⟨-, -, h⟩
  · rcases loadElf_error (hfile _ hopen) hload with hvalue |
      ⟨exception, code, rfl, hholds, huncaught⟩
    · exact .inl hvalue
    · exact .inr ⟨exception, program, code, emulator, rfl, hopen, hholds, huncaught⟩
  rcases bind_error h with hallocate | ⟨allocated, -, h⟩
  · obtain ⟨⟨-, hwidth⟩, -, hheight⟩ := optionsParse_ok hoptions
    obtain ⟨hproduct, hexact⟩ := itemCount_toNat hwidth hheight
    rw [← hproduct] at hexact
    exact .inl (allocateFramebuffer_error hexact hallocate)
  · cases h

end Stages

/-- A start succeeds, or reports an error (none if SDL has no video) and leaves no
application, or is ended by the pointer of the decoder. -/
theorem startup_outcome {Handler : Type} (host : Host) (std : StdSort SegmentHeader.less)
    (native : Endian) (initsVideo : Bool) (args : List String) (hhost : ParsesArguments host)
    (hfile : ∀ program, Opens host args program → OffsetsExact native program) :
    (∃ app : App Handler,
      sdlAppInit host std native initsVideo args = .continuing { app := some app }) ∨
    (∃ errors, (sdlAppInit host std native initsVideo args : Status Handler) =
        .ended .Failure { errors := errors } ∧
      errors.length = if initsVideo then 1 else 0) ∨
    ∃ e, (sdlAppInit host std native initsVideo args : Status Handler) = .aborted e ∧
      EscapesFrom std native Handler host args e := by
  cases initsVideo with
  | false => exact .inr (.inl ⟨[], rfl, rfl⟩)
  | true =>
    unfold sdlAppInit
    cases h : (App.new host std native args : Except Abort (App Handler)) with
    | ok app => exact .inl ⟨app, rfl⟩
    | error e =>
      rcases appNew_error hhost hfile h with ⟨exception, rfl⟩ | hescapes
      · exact .inr (.inl ⟨_, rfl, rfl⟩)
      · obtain ⟨exception, program, code, emulator, rfl, hrest⟩ := hescapes
        exact .inr (.inr ⟨_, rfl, exception, program, code, emulator, rfl, hrest⟩)

theorem startup_outcome_small :
    (∃ app : App Unit,
      sdlAppInit smallHost insertionSort .little true [] = .continuing { app := some app }) ∨
    (∃ errors, (sdlAppInit smallHost insertionSort .little true [] : Status Unit) =
        .ended .Failure { errors := errors } ∧ errors.length = 1) ∨
    ∃ e, (sdlAppInit smallHost insertionSort .little true [] : Status Unit) = .aborted e ∧
      EscapesFrom insertionSort .little Unit smallHost [] e := by
  have hheader : ElfHeader.read .little upperFile = .ok (elfHeaderOf 2) := by decide +kernel
  have hheaders : loadHeaders .little upperFile = [codeSegment 176, paddedSegment] := by
    decide +kernel
  refine startup_outcome smallHost insertionSort .little true [] ⟨?_, ?_⟩ ?_
  · intro args parsed h
    rw [← Except.ok.inj h]
    rfl
  · intro args e h
    cases h
  · rintro program ⟨options, -, hopen⟩
    obtain rfl := Option.some.inj hopen
    constructor
    · intro elfHeader hread
      obtain rfl := Except.ok.inj (hheader.symm.trans hread)
      have hlength : upperFile.length = 182 := by decide +kernel
      intro i hi
      have htwo : i < 2 := hi
      rw [hlength]
      interval_cases i <;> decide
    · intro header hmem
      rw [hheaders, List.mem_cons, List.mem_singleton] at hmem
      rcases hmem with rfl | rfl
      · exact ⟨by decide, by decide⟩
      · exact ⟨by decide, by decide⟩

end RiscvEmulator.Guarantees
