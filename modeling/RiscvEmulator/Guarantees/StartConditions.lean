import RiscvEmulator.Guarantees.Startup

/-!
# When the application starts

The constructor of the application returns under conditions that can be read off its
arguments, the host and the file. The size of the memory is a product in `size_t` and may be
0 although the argument is not. The framebuffer has to fit into the memory, and so has the
program's data, but each of them only by itself.
-/
namespace RiscvEmulator.Guarantees
open Source Library Alignment ExceptList

variable {Handler : Type}

/-- What a start needs: of the arguments, of the host and of the file. -/
structure Startable (Handler : Type) (host : Host) (std : StdSort SegmentHeader.less)
    (native : Endian) (args : List String) (parsed : ParsedArguments) (width height : BitVec 32)
    (base : Nat) (program : List Byte) : Prop where
  arguments : host.parseArgs args = .ok parsed
  kibibytes : parsed.memorySizeKiB ≠ 0
  wide : parsed.framebufferSize[0]? = some width ∧ 0 < width.toInt
  high : parsed.framebufferSize[1]? = some height ∧ 0 < height.toInt
  storage : (memoryBytes parsed).toNat ≤ vectorMaxSize ∧
    host.allocate (memoryBytes parsed).toNat = some base
  screen : host.createsWindow = true ∧ host.createsRenderer = true ∧ host.createsTexture = true
  file : host.openFile parsed.programPath = some program
  loads : (loadElf std native program
    (Emulator.new base (memoryBytes parsed).toNat : Emulator Handler)).1 = .ok ()
  room : 0 < base ∧ alignUp 4 base + 4 * (width.toNat * height.toNat) ≤
    base + (memoryBytes parsed).toNat

section Stages
variable {host : Host}

theorem rendererNew_ok_iff {width height : BitVec 32} :
    (∃ renderer, Renderer.new host width height = .ok renderer) ↔
      host.createsWindow = true ∧ host.createsRenderer = true ∧ host.createsTexture = true := by
  unfold Renderer.new
  cases host.createsWindow <;> cases host.createsRenderer <;> cases host.createsTexture <;>
    simp [throwValue]

/-- A framebuffer whose size does not wrap is allocated where it fits by itself. -/
theorem allocateFramebuffer_ok_iff {memory : Arena} {itemCount : BitVec 64}
    (hexact : 4 * itemCount.toNat < 2 ^ 64) :
    (∃ framebuffer, allocateFramebuffer memory itemCount = .ok framebuffer) ↔
      0 < memory.base + memory.getFreeOffset ∧
        alignUp 4 (memory.base + memory.getFreeOffset) + 4 * itemCount.toNat ≤
          memory.base + memory.raw.length := by
  have haccepts := @allocate_accepts_iff memory (.array ItemType.pixel itemCount) hexact
  refine Iff.trans ?_ haccepts
  constructor
  · rintro ⟨⟨offset, allocated⟩, h⟩
    exact ⟨offset, allocated, allocateFramebuffer_ok h⟩
  · rintro ⟨offset, allocated, h⟩
    replace h : memory.allocateArray ItemType.pixel itemCount = .ok (offset, allocated) := h
    unfold allocateFramebuffer
    rw [h]
    exact ⟨_, rfl⟩

/-- Whether the framebuffer fits depends on the memory alone, not on the data in it. -/
theorem allocateFramebuffer_fresh_iff {memory : Arena} {base capacity : Nat}
    {width height : BitVec 32} (hlayout : SameLayout (Arena.new base capacity) memory)
    (hwide : 0 < width.toInt) (hhigh : 0 < height.toInt) :
    (∃ framebuffer, allocateFramebuffer memory (width.setWidth 64 * height.setWidth 64) =
        .ok framebuffer) ↔
      0 < base ∧ alignUp 4 base + 4 * (width.toNat * height.toNat) ≤ base + capacity := by
  obtain ⟨hproduct, hexact⟩ :=
    itemCount_toNat (toNat_bounds hwide).2 (toNat_bounds hhigh).2
  obtain ⟨hbase, hlength, hfree⟩ := hlayout.fresh
  rw [allocateFramebuffer_ok_iff (by rw [hproduct]; exact hexact), hproduct, hbase, hlength, hfree,
    Nat.add_zero]

end Stages

/-- The application starts exactly when its arguments, the host and the file allow it. -/
theorem start_accepts_iff {Handler : Type} (host : Host) (std : StdSort SegmentHeader.less)
    (native : Endian) (args : List String) :
    (∃ app : App Handler, App.new host std native args = .ok app) ↔
      ∃ parsed width height base program,
        Startable Handler host std native args parsed width height base program := by
  constructor
  · rintro ⟨app, h⟩
    unfold App.new at h
    obtain ⟨options, hoptions, h⟩ := bind_ok h
    obtain ⟨emulator, hemulator, h⟩ := bind_ok h
    obtain ⟨renderer, hrenderer, h⟩ := bind_ok h
    obtain ⟨program, hprogram, h⟩ := bind_ok h
    dsimp only at h
    obtain ⟨⟨⟩, hload, h⟩ := bind_ok h
    obtain ⟨framebuffer, hallocate, -⟩ := bind_ok h
    obtain ⟨parsed, width, height, harguments, hkibibytes, hwide, hhigh, rfl⟩ :=
      optionsParse_ok_iff.mp hoptions
    obtain ⟨hlimit, base, hbase, rfl⟩ := newEmulator_ok_iff.mp hemulator
    have hlayout := sameLayout_afterLoad std native program
      (Emulator.new base (memoryBytes parsed).toNat : Emulator Handler)
    exact ⟨parsed, width, height, base, program, {
      arguments := harguments
      kibibytes := hkibibytes
      wide := hwide
      high := hhigh
      storage := ⟨hlimit, hbase⟩
      screen := rendererNew_ok_iff.mp ⟨renderer, hrenderer⟩
      file := readProgramFile_ok hprogram
      loads := hload
      room := (allocateFramebuffer_fresh_iff hlayout hwide.2 hhigh.2).mp ⟨framebuffer, hallocate⟩ }⟩
  · rintro ⟨parsed, width, height, base, program, h⟩
    have hlayout := sameLayout_afterLoad std native program
      (Emulator.new base (memoryBytes parsed).toNat : Emulator Handler)
    have hoptions : Options.parse host args =
        .ok ⟨parsed.programPath, width, height, memoryBytes parsed⟩ :=
      optionsParse_ok_iff.mpr
        ⟨parsed, width, height, h.arguments, h.kibibytes, h.wide, h.high, rfl⟩
    have hemulator : newEmulator host (memoryBytes parsed) =
        .ok (Emulator.new base (memoryBytes parsed).toNat : Emulator Handler) :=
      newEmulator_ok_iff.mpr ⟨h.storage.1, base, h.storage.2, rfl⟩
    have hprogram : readProgramFile host parsed.programPath = .ok program := by
      unfold readProgramFile
      rw [h.file]
    obtain ⟨renderer, hrenderer⟩ := (@rendererNew_ok_iff host width height).mpr h.screen
    obtain ⟨framebuffer, hallocate⟩ :=
      (allocateFramebuffer_fresh_iff hlayout h.wide.2 h.high.2).mpr h.room
    unfold App.new
    rw [hoptions, ok_bind, hemulator, ok_bind, hrenderer, ok_bind, hprogram, ok_bind]
    dsimp only
    rw [h.loads, ok_bind, hallocate, ok_bind]
    exact ⟨_, rfl⟩

end RiscvEmulator.Guarantees
