import RiscvEmulator.Guarantees.ArenaCursor
import RiscvEmulator.Guarantees.LoadHistory
import RiscvEmulator.Source.App

/-!
# The memory the application starts with

Loading the program takes up no guest memory, so the framebuffer is placed as if nothing
had been loaded: at the first aligned address of the arena, over the data segments, which
start at guest address 0 as well. Its pixels are then constructed and the program's data
is zero from there to the framebuffer's end.
-/
namespace RiscvEmulator.Guarantees
open Source Spec Library ByteBuffer ExceptList Alignment

section Arrays
variable {arena arena' : Arena} {type : ItemType} {offset : Nat}

/-- Items of zeros are written to their own bytes and to no others. -/
theorem constructItems_zero (hzero : type.initial = List.replicate type.size 0)
    {storage storage' : List Byte} {count : Nat}
    (h : Arena.constructItems type storage offset count = .ok storage') (i : Nat) :
    storage'[i]? = if offset ≤ i ∧ i < offset + type.size * count then some 0 else storage[i]? := by
  induction count generalizing storage' with
  | zero =>
    obtain rfl := Except.ok.inj h
    simp
  | succ count ih =>
    unfold Arena.constructItems at h
    obtain ⟨previous, hprevious, h⟩ := bind_ok h
    split at h
    next written hwrite =>
      obtain rfl := Except.ok.inj h
      have hlength : type.initial.length = type.size := rfl
      rw [Nat.mul_comm count] at hwrite
      rw [Nat.mul_succ]
      by_cases hlast : offset + type.size * count ≤ i ∧ i < offset + type.size * count + type.size
      · have hwritten := getElem?_of_writeAt hwrite (k := i - (offset + type.size * count))
          (by omega)
        rw [Nat.add_sub_cancel' hlast.1, hzero, List.getElem?_replicate_of_lt (by omega)]
          at hwritten
        rw [hwritten, if_pos (by omega)]
      · rw [getElem?_of_writeAt_outside hwrite (by omega), ih hprevious]
        exact if_congr (by omega) rfl rfl
    · cases h

/-- An array of zeros begins at the next aligned byte and changes no other byte. -/
theorem allocateArray_zero {itemCount : BitVec 64}
    (hzero : type.initial = List.replicate type.size 0)
    (hexact : type.size * itemCount.toNat < 2 ^ 64)
    (h : arena.allocateArray type itemCount = .ok (offset, arena')) :
    arena.base + offset = alignUp type.alignment (arena.base + arena.getFreeOffset) ∧
      offset + type.size * itemCount.toNat ≤ arena.storage.length ∧
      arena'.storage.length = arena.storage.length ∧
      ∀ i, arena'.storage[i]? = if offset ≤ i ∧ i < offset + type.size * itemCount.toNat then some 0
        else arena.storage[i]? := by
  have hfree := arena.free_le
  unfold Arena.allocateArray at h
  obtain ⟨⟨start, cursor⟩, hraw, h⟩ := bind_ok h
  obtain ⟨filled, hitems, h⟩ := bind_ok h
  obtain ⟨rfl, rfl⟩ := Prod.mk.inj (Except.ok.inj h)
  obtain ⟨padding, hpadding, hfit, hstart, -, hstorage, -⟩ := Arena.allocateRaw_ok hraw
  obtain ⟨-, -, hfilled⟩ := Arena.withItems_ok hitems
  rw [Nat.mod_eq_of_lt hexact] at hfit
  refine ⟨?_, ?_, ?_, fun i => ?_⟩
  · rw [alignUp, shortfall, ← hpadding, hstart, Nat.add_assoc]
  · rw [hstart]
    unfold Arena.getFreeOffset
    omega
  · rw [Arena.length_constructItems hfilled, hstorage]
  · rw [constructItems_zero hzero hfilled i, hstorage]

end Arrays

section Start
variable {Handler : Type} {host : Host} {args : List String}

/-- `memorySizeKiB * 1024`. -/
def memoryBytes (parsed : ParsedArguments) : BitVec 64 := parsed.memorySizeKiB * 1024

theorem toNat_bounds {size : BitVec 32} (h : 0 < size.toInt) :
    0 < size.toNat ∧ size.toNat < 2 ^ 31 := by
  rw [BitVec.toInt_eq_toNat_cond] at h
  have hlt := size.isLt
  split at h <;> omega

theorem not_sle_zero_iff (size : BitVec 32) : ¬size.sle 0 = true ↔ 0 < size.toInt := by
  rw [BitVec.sle_iff_toInt_le]
  exact Int.not_le

theorem elementAt_ok_iff {α : Type} {items : List α} {i : Nat} {item : α} :
    elementAt items i = .ok item ↔ items[i]? = some item := by
  unfold elementAt
  cases items[i]? with
  | none => simp
  | some other => simp

theorem optionsParse_ok_iff {options : Options} :
    Options.parse host args = .ok options ↔ ∃ parsed width height,
      host.parseArgs args = .ok parsed ∧ parsed.memorySizeKiB ≠ 0 ∧
      (parsed.framebufferSize[0]? = some width ∧ 0 < width.toInt) ∧
      (parsed.framebufferSize[1]? = some height ∧ 0 < height.toInt) ∧
      options = ⟨parsed.programPath, width, height, memoryBytes parsed⟩ := by
  constructor
  · intro h
    unfold Options.parse at h
    obtain ⟨parsed, hparse, h⟩ := bind_ok h
    split at h
    · cases h
    next hkibibytes =>
    obtain ⟨width, hwidth, h⟩ := bind_ok h
    split at h
    · cases h
    next hwide =>
    obtain ⟨height, hheight, h⟩ := bind_ok h
    split at h
    · cases h
    next hhigh =>
    exact ⟨parsed, width, height, hparse, hkibibytes,
      ⟨elementAt_ok_iff.mp hwidth, (not_sle_zero_iff width).mp hwide⟩,
      ⟨elementAt_ok_iff.mp hheight, (not_sle_zero_iff height).mp hhigh⟩, (Except.ok.inj h).symm⟩
  · rintro ⟨parsed, width, height, hparse, hkibibytes, ⟨hwidth, hwide⟩, ⟨hheight, hhigh⟩, rfl⟩
    unfold Options.parse
    rw [hparse, ok_bind, if_neg hkibibytes, elementAt_ok_iff.mpr hwidth, ok_bind,
      if_neg ((not_sle_zero_iff width).mpr hwide), elementAt_ok_iff.mpr hheight, ok_bind,
      if_neg ((not_sle_zero_iff height).mpr hhigh)]
    rfl

/-- Both sizes of the framebuffer are positive `int32_t` numbers. -/
theorem optionsParse_ok {options : Options} (h : Options.parse host args = .ok options) :
    (0 < options.framebufferWidth.toNat ∧ options.framebufferWidth.toNat < 2 ^ 31) ∧
      0 < options.framebufferHeight.toNat ∧ options.framebufferHeight.toNat < 2 ^ 31 := by
  obtain ⟨parsed, width, height, -, -, ⟨-, hwide⟩, ⟨-, hhigh⟩, rfl⟩ := optionsParse_ok_iff.mp h
  exact ⟨toNat_bounds hwide, toNat_bounds hhigh⟩

theorem newEmulator_ok_iff {memorySize : BitVec 64} {emulator : Emulator Handler} :
    newEmulator host memorySize = .ok emulator ↔ memorySize.toNat ≤ vectorMaxSize ∧
      ∃ base, host.allocate memorySize.toNat = some base ∧
        emulator = Emulator.new base memorySize.toNat := by
  unfold newEmulator
  by_cases hlarge : memorySize.toNat > vectorMaxSize
  · rw [if_pos hlarge]
    simp [throwValue, Nat.not_le.mpr hlarge]
  · rw [if_neg hlarge]
    cases host.allocate memorySize.toNat with
    | none => simp [throwValue]
    | some base => simp [Nat.le_of_not_lt hlarge, eq_comm]

theorem rendererNew_ok {width height : BitVec 32} {renderer : Renderer}
    (h : Renderer.new host width height = .ok renderer) : renderer = ⟨width, height⟩ := by
  unfold Renderer.new at h
  split at h
  · cases h
  split at h
  · cases h
  split at h
  · cases h
  · exact (Except.ok.inj h).symm

theorem readProgramFile_ok {path : String} {program : List Byte}
    (h : readProgramFile host path = .ok program) : host.openFile path = some program := by
  unfold readProgramFile at h
  split at h
  · next hopen => rw [hopen, Except.ok.inj h]
  · cases h

theorem allocateFramebuffer_ok {memory allocated : Arena} {origin : Nat} {itemCount : BitVec 64}
    (h : allocateFramebuffer memory itemCount = .ok (origin, allocated)) :
    memory.allocateArray ItemType.pixel itemCount = .ok (origin, allocated) := by
  unfold allocateFramebuffer at h
  split at h
  · cases h
  · exact h

/-- What a started application went through. -/
theorem appNew_ok {std : StdSort SegmentHeader.less} {native : Endian} {app : App Handler}
    (h : App.new host std native args = .ok app) :
    ∃ base program loaded, Options.parse host args = .ok app.options ∧
      host.allocate app.options.memorySize.toNat = some base ∧
      app.renderer = ⟨app.options.framebufferWidth, app.options.framebufferHeight⟩ ∧
      host.openFile app.options.programPath = some program ∧
      loadElf std native program (Emulator.new base app.options.memorySize.toNat) =
        (.ok (), loaded) ∧
      ∃ itemCount : BitVec 64, itemCount = app.options.framebufferWidth.setWidth 64 *
          app.options.framebufferHeight.setWidth 64 ∧
        loaded.memory.allocateArray ItemType.pixel itemCount =
          .ok (app.framebuffer.offset, app.emulator.memory) ∧
        app.framebuffer.count = itemCount.toNat ∧
        app.emulator = { loaded with memory := app.emulator.memory } ∧
        app.mainThread = {} ∧ app.keyEvents = [] := by
  unfold App.new at h
  obtain ⟨options, hoptions, h⟩ := bind_ok h
  obtain ⟨emulator, hemulator, h⟩ := bind_ok h
  obtain ⟨renderer, hrenderer, h⟩ := bind_ok h
  obtain ⟨program, hprogram, h⟩ := bind_ok h
  obtain ⟨-, base, hbase, rfl⟩ := newEmulator_ok_iff.mp hemulator
  dsimp only at h
  obtain ⟨⟨⟩, hload, h⟩ := bind_ok h
  obtain ⟨⟨offset, memory⟩, hallocate, h⟩ := bind_ok h
  obtain rfl := Except.ok.inj h
  exact ⟨base, program, _, hoptions, hbase, rendererNew_ok hrenderer, readProgramFile_ok hprogram,
    Prod.ext hload rfl, _, rfl, allocateFramebuffer_ok hallocate, rfl, rfl, rfl, rfl⟩

end Start

/-- The memory of a started application: what the load left, with the framebuffer, at the
first aligned address, laid over it. -/
structure Overlaid {Handler : Type} (base : Nat) (loaded : Emulator Handler)
    (app : App Handler) : Prop where
  placed : base + app.framebuffer.offset = alignUp 4 base
  size : app.framebuffer.count =
    app.options.framebufferWidth.toNat * app.options.framebufferHeight.toNat
  inside : app.framebuffer.offset + 4 * app.framebuffer.count ≤ app.options.memorySize.toNat
  bytes : ∀ i, app.emulator.memory.raw[i]? =
    if app.framebuffer.offset ≤ i ∧ i < app.framebuffer.offset + 4 * app.framebuffer.count
      then some 0
    else loaded.memory.raw[i]?
  instructions : app.emulator.instructions = loaded.instructions

theorem itemCount_toNat {width height : BitVec 32} (hwidth : width.toNat < 2 ^ 31)
    (hheight : height.toNat < 2 ^ 31) :
    (width.setWidth 64 * height.setWidth 64).toNat = width.toNat * height.toNat ∧
      4 * (width.toNat * height.toNat) < 2 ^ 64 := by
  have hproduct : width.toNat * height.toNat < 2 ^ 31 * 2 ^ 31 := Nat.mul_lt_mul'' hwidth hheight
  refine ⟨?_, by omega⟩
  rw [BitVec.toNat_mul, BitVec.toNat_setWidth, BitVec.toNat_setWidth,
    Nat.mod_eq_of_lt (by omega : width.toNat < 2 ^ 64),
    Nat.mod_eq_of_lt (by omega : height.toNat < 2 ^ 64), Nat.mod_eq_of_lt (by omega)]

/-- An application whose framebuffer was allocated after the load overlays what was loaded. -/
theorem overlaid_of_load {Handler : Type} {std : StdSort SegmentHeader.less} {native : Endian}
    {program : List Byte} {base : Nat} {loaded : Emulator Handler} {app : App Handler}
    (hload : loadElf std native program (Emulator.new base app.options.memorySize.toNat) =
      (.ok (), loaded))
    (hwidth : app.options.framebufferWidth.toNat < 2 ^ 31)
    (hheight : app.options.framebufferHeight.toNat < 2 ^ 31)
    (hallocate : loaded.memory.allocateArray ItemType.pixel
      (app.options.framebufferWidth.setWidth 64 * app.options.framebufferHeight.setWidth 64) =
        .ok (app.framebuffer.offset, app.emulator.memory))
    (hspan : app.framebuffer.count = (app.options.framebufferWidth.setWidth 64 *
      app.options.framebufferHeight.setWidth 64).toNat)
    (hemulator : app.emulator = { loaded with memory := app.emulator.memory }) :
    Overlaid base loaded app := by
  obtain ⟨hproduct, hexact⟩ := itemCount_toNat hwidth hheight
  have hlayout := sameLayout_afterLoad std native program
    (Emulator.new base app.options.memorySize.toNat : Emulator Handler)
  rw [hload] at hlayout
  obtain ⟨hbase, hlength, hfree⟩ := hlayout.fresh
  have hsize : ItemType.pixel.size = 4 := rfl
  obtain ⟨hplaced, hinside, -, hbytes⟩ := allocateArray_zero rfl
    (by rw [hsize, hproduct]; exact hexact) hallocate
  rw [hsize, ← hspan] at hinside hbytes
  rw [hbase, hfree] at hplaced
  exact {
    placed := hplaced
    size := hspan.trans hproduct
    inside := by
      rw [← hlength]
      exact hinside
    bytes := hbytes
    instructions := by rw [hemulator] }

/-- The framebuffer of a started application overlays the data of the loaded program. -/
theorem startup_overlaid {Handler : Type} {host : Host} {std : StdSort SegmentHeader.less}
    {native : Endian} {args : List String} {app : App Handler}
    (h : App.new host std native args = .ok app) :
    ∃ base program loaded, host.allocate app.options.memorySize.toNat = some base ∧
      host.openFile app.options.programPath = some program ∧
      loadElf std native program (Emulator.new base app.options.memorySize.toNat) =
        (.ok (), loaded) ∧ Overlaid base loaded app := by
  obtain ⟨base, program, loaded, hoptions, hbase, -, hprogram, hload, itemCount, rfl, hallocate,
    hspan, hemulator, -, -⟩ := appNew_ok h
  obtain ⟨⟨-, hwidth⟩, -, hheight⟩ := optionsParse_ok hoptions
  exact ⟨base, program, loaded, hbase, hprogram, hload,
    overlaid_of_load hload hwidth hheight hallocate hspan hemulator⟩

/-- One instruction, `lui x0, 0`, and two bytes of data. -/
def upperFile : List Byte :=
  elfFile [codeSegment 176, paddedSegment] [0x37, 0, 0, 0, 0xaa, 0xbb]

/-- Two pixels in one KiB of memory, the first of them where the data is. -/
def smallHost : Host where
  parseArgs _ := .ok { programPath := "upper", framebufferSize := [2, 1], memorySizeKiB := 1 }
  allocate _ := some 4098
  createsWindow := true
  createsRenderer := true
  createsTexture := true
  openFile _ := some upperFile

theorem appNew_small : ∃ app : App Unit, App.new smallHost insertionSort .little [] = .ok app ∧
    app.renderer.framebufferWidth.toNat = 2 ∧ app.options.memorySize.toNat = 1024 ∧
      app.emulator.memory.raw[2]? = some 0 := by
  have hvalues : (match App.new smallHost insertionSort .little [] with
      | .ok (app : App Unit) => (app.renderer.framebufferWidth.toNat,
          app.options.memorySize.toNat, app.emulator.memory.raw[2]?)
      | .error _ => (0, 0, none)) = (2, 1024, some 0) := by decide +kernel
  cases h : (App.new smallHost insertionSort .little [] : Except Abort (App Unit)) with
  | ok app =>
    rw [h] at hvalues
    obtain ⟨hwidth, hrest⟩ := Prod.mk.inj hvalues
    obtain ⟨hsize, hbyte⟩ := Prod.mk.inj hrest
    exact ⟨app, rfl, hwidth, hsize, hbyte⟩
  | error e =>
    rw [h] at hvalues
    cases hvalues

theorem loadElf_upperFile :
    (loadElf insertionSort .little upperFile
      (Emulator.new 4098 1024 : Emulator Unit)).2.memory.raw[2]? = some 0xaa := by decide +kernel

/-- The framebuffer erases the first byte of the data. -/
theorem startup_overlaid_small : ∃ app : App Unit, ∃ base program loaded,
    smallHost.allocate app.options.memorySize.toNat = some base ∧
      smallHost.openFile app.options.programPath = some program ∧
      loadElf insertionSort .little program (Emulator.new base app.options.memorySize.toNat) =
        (.ok (), loaded) ∧ Overlaid base loaded app ∧
      loaded.memory.raw[2]? = some 0xaa ∧ app.emulator.memory.raw[2]? = some 0 := by
  obtain ⟨app, happ, -, hsize, hbyte⟩ := appNew_small
  obtain ⟨base, program, loaded, hbase, hprogram, hload, hoverlaid⟩ := startup_overlaid happ
  have hdata : loaded.memory.raw[2]? = some 0xaa := by
    obtain rfl := Option.some.inj hbase
    obtain rfl := Option.some.inj hprogram
    rw [← loadElf_upperFile, ← hsize, hload]
  exact ⟨app, base, program, loaded, hbase, hprogram, hload, hoverlaid, hdata, hbyte⟩

end RiscvEmulator.Guarantees
