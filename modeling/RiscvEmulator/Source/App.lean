import RiscvEmulator.Source.Elf

/-!
# The application

Embeds src/options.cpp, src/renderer.cpp and src/app.cpp. What argparse makes of the
arguments, what SDL and the file system answer and where the guest memory is allocated
are parameters, a `Host`. The pixels `presentFramebuffer` hands to SDL are its result; the
other calls of SDL pass nothing on from the program and are left out, as are argparse's
own options, which end the process.
-/
namespace RiscvEmulator.Source
open Library.ByteBuffer Library.ExceptList

/-- The variables of `Options::parse` as argparse leaves them. -/
structure ParsedArguments where
  programPath : String
  framebufferSize : List (BitVec 32)
  memorySizeKiB : BitVec 64

/-- The answers of the libraries and of the operating system. -/
structure Host where
  parseArgs : List String → Except Abort ParsedArguments
  /-- The address of a vector's storage of so many bytes, if there is memory for it. -/
  allocate : Nat → Option Nat
  createsWindow : Bool
  createsRenderer : Bool
  createsTexture : Bool
  openFile : String → Option (List Byte)

structure Options where
  programPath : String
  framebufferWidth : BitVec 32
  framebufferHeight : BitVec 32
  memorySize : BitVec 64

/-- `items[i]` of a vector: unchecked. -/
def elementAt {α : Type} (items : List α) (i : Nat) : Except Abort α :=
  match items[i]? with
  | some item => .ok item
  | none => .error .undefinedBehaviour

def Options.parse (host : Host) (args : List String) : Except Abort Options := do
  let parsed ← host.parseArgs args
  if parsed.memorySizeKiB = 0 then
    throwValue (.runtimeError "memory size must be non-zero")
  else
    let width ← elementAt parsed.framebufferSize 0
    if width.sle 0 then throwValue (.runtimeError "framebuffer size must be positive")
    else
      let height ← elementAt parsed.framebufferSize 1
      if height.sle 0 then throwValue (.runtimeError "framebuffer size must be positive")
      else return {
        programPath := parsed.programPath
        framebufferWidth := width
        framebufferHeight := height
        memorySize := parsed.memorySizeKiB * 1024 }

/-- `Renderer::Pixel`, value-initialised. -/
def ItemType.pixel : ItemType := ⟨4, [0, 0, 0, 0], by decide, ⟨2, rfl⟩⟩

/-- `std::span<Renderer::Pixel>`: where it starts in the guest memory, and its items. -/
structure PixelSpan where
  offset : Nat
  count : Nat
  deriving DecidableEq, Repr

structure Renderer where
  framebufferWidth : BitVec 32
  framebufferHeight : BitVec 32

namespace Renderer

def new (host : Host) (framebufferWidth framebufferHeight : BitVec 32) : Except Abort Renderer :=
  if !host.createsWindow then throwValue (.runtimeError "failed to create SDL window")
  else if !host.createsRenderer then throwValue (.runtimeError "failed to create SDL renderer")
  else if !host.createsTexture then throwValue (.runtimeError "failed to create SDL texture")
  else .ok { framebufferWidth, framebufferHeight }

/-- `framebufferPitch`: a `size_t` product, cast to `int`. -/
def framebufferPitch (renderer : Renderer) : Int :=
  ((renderer.framebufferWidth.setWidth 64 * 4).setWidth 32).toInt

/-- `SDL_UpdateTexture` reads one row of pixels after the other, `pitch` bytes apart. The pitch
has to cover a row; nothing is known of a call with a smaller one. -/
def updateTexture (renderer : Renderer) (storage : List Byte) (start : Nat) (pitch : Int) :
    Except Abort (List (List Byte)) :=
  let rowSize := 4 * renderer.framebufferWidth.toNat
  if pitch < rowSize then .error .undefinedBehaviour
  else
    (List.range renderer.framebufferHeight.toNat).mapM fun (row : Nat) =>
      match readAt storage (start + row * pitch.toNat) rowSize with
      | some pixels => .ok pixels
      | none => .error .undefinedBehaviour

/-- The rows of the texture that is presented. -/
def presentFramebuffer (renderer : Renderer) (memory : Arena) (framebuffer : PixelSpan) :
    Except Abort (List (List Byte)) :=
  renderer.updateTexture memory.storage framebuffer.offset renderer.framebufferPitch

end Renderer

/-- `SDLK_UNKNOWN`. -/
def keyUnknown : BitVec 32 := 0

structure App (Handler : Type) where
  options : Options
  emulator : Emulator Handler
  mainThread : Thread
  renderer : Renderer
  framebuffer : PixelSpan
  keyEvents : List (BitVec 32)

/-- How a call of `tick` stands after a number of iterations of `run`. -/
inductive TickResult (Handler : Type) where
  | presented (rows : List (List Byte)) (app : App Handler)
  | threw (object : Thrown) (app : App Handler)
  | undefinedBehaviour
  | running (app : App Handler)

section Start
variable {Handler : Type}

/-- The constructor of `Emulator`, which allocates the vector of its arena. -/
def newEmulator (host : Host) (memorySize : BitVec 64) : Except Abort (Emulator Handler) :=
  if memorySize.toNat > vectorMaxSize then throwValue .lengthError
  else
    match host.allocate memorySize.toNat with
    | some base => .ok (Emulator.new base memorySize.toNat)
    | none => throwValue .badAlloc

def readProgramFile (host : Host) (path : String) : Except Abort (List Byte) :=
  match host.openFile path with
  | some program => .ok program
  | none => throwValue (.runtimeError "failed to open program file")

/-- The `try` block of `App::App` with its handler. -/
def allocateFramebuffer (memory : Arena) (itemCount : BitVec 64) :
    Except Abort (Nat × Arena) :=
  match memory.allocateArray ItemType.pixel itemCount with
  | .error (.thrown (.value .badAlloc)) =>
    throwValue (.runtimeError "not enough emulator memory to allocate framebuffer")
  | result => result

def App.new (host : Host) (std : StdSort SegmentHeader.less) (native : Endian)
    (args : List String) : Except Abort (App Handler) := do
  let options ← Options.parse host args
  let emulator ← newEmulator host options.memorySize
  let renderer ← Renderer.new host options.framebufferWidth options.framebufferHeight
  let programData ← readProgramFile host options.programPath
  let (loading, emulator) := loadElf std native programData emulator
  loading
  let itemCount := options.framebufferWidth.setWidth 64 * options.framebufferHeight.setWidth 64
  let (offset, memory) ← allocateFramebuffer emulator.memory itemCount
  return {
    options, renderer
    emulator := { emulator with memory := memory }
    mainThread := {}
    framebuffer := { offset := offset, count := itemCount.toNat }
    keyEvents := [] }

end Start

namespace App
variable {Handler : Type}

def tick (app : App Handler) (iterations : Nat) : TickResult Handler :=
  match app.emulator.run iterations app.mainThread with
  | .returned thread =>
    match app.renderer.presentFramebuffer app.emulator.memory app.framebuffer with
    | .ok rows => .presented rows { app with mainThread := thread }
    | .error (.thrown object) => .threw object { app with mainThread := thread }
    | .error .undefinedBehaviour => .undefinedBehaviour
  | .threw object thread => .threw object { app with mainThread := thread }
  | .undefinedBehaviour => .undefinedBehaviour
  | .running thread => .running { app with mainThread := thread }

/-- The negation of the smallest `int32_t` is undefined. -/
def handleKey (app : App Handler) (keyCode : BitVec 32) (isKeyDown : Bool) :
    Except Abort (App Handler) :=
  if keyCode = keyUnknown then .ok app
  else if isKeyDown then .ok { app with keyEvents := app.keyEvents ++ [keyCode] }
  else if keyCode = BitVec.intMin 32 then .error .undefinedBehaviour
  else .ok { app with keyEvents := app.keyEvents ++ [-keyCode] }

end App
end RiscvEmulator.Source
