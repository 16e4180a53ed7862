import RiscvEmulator.Guarantees.DecodedRegisters
import RiscvEmulator.Guarantees.PreciseFaults
import RiscvEmulator.Guarantees.Startup
import RiscvEmulator.Source.Main

/-!
# Sessions of the application

Whatever callbacks SDL makes after a successful start, in whatever order, they find the
application, and they change its thread and its key buffer only. No instruction the
emulator executes writes to memory, so each frame is the blank one of the start. Once the
program has returned, its thread is at rest and the session can only go on until it is
asked to quit.
-/
namespace RiscvEmulator.Guarantees
open Source Source.Emulator Spec Library ByteBuffer ExceptList

variable {Handler : Type}

def blankFrame (width height : Nat) : List (List Byte) :=
  List.replicate height (List.replicate (4 * width) 0)

section Frames
variable {renderer : Renderer}

/-- A row of less than 2 ^ 31 bytes has its size for the pitch. -/
theorem framebufferPitch_eq (hwidth : renderer.framebufferWidth.toNat < 2 ^ 29) :
    renderer.framebufferPitch = (4 * renderer.framebufferWidth.toNat : Nat) := by
  have hpitch : ((renderer.framebufferWidth.setWidth 64 * 4).setWidth 32).toNat =
      4 * renderer.framebufferWidth.toNat := by
    simp only [BitVec.toNat_setWidth, BitVec.toNat_mul, BitVec.reduceToNat]
    omega
  unfold Renderer.framebufferPitch
  rw [BitVec.toInt_eq_toNat_cond, hpitch, if_pos (by omega)]

/-- A framebuffer of zeros is presented as a blank frame. -/
theorem presentFramebuffer_blank {memory : Arena} {framebuffer : PixelSpan}
    (hwidth : renderer.framebufferWidth.toNat < 2 ^ 29)
    (hinside : framebuffer.offset + 4 * (renderer.framebufferWidth.toNat *
      renderer.framebufferHeight.toNat) ≤ memory.storage.length)
    (hzero : ∀ i, framebuffer.offset ≤ i → i < framebuffer.offset +
      4 * (renderer.framebufferWidth.toNat * renderer.framebufferHeight.toNat) →
        memory.storage[i]? = some 0) :
    renderer.presentFramebuffer memory framebuffer =
      .ok (blankFrame renderer.framebufferWidth.toNat renderer.framebufferHeight.toNat) := by
  have hpitch := framebufferPitch_eq hwidth
  have hrow (row : Nat) (hmem : row ∈ List.range renderer.framebufferHeight.toNat) :
      readAt memory.storage (framebuffer.offset + row * (4 * renderer.framebufferWidth.toNat))
        (4 * renderer.framebufferWidth.toNat) =
      some (List.replicate (4 * renderer.framebufferWidth.toNat) 0) := by
    have hstart : row * (4 * renderer.framebufferWidth.toNat) =
        4 * (renderer.framebufferWidth.toNat * row) := by ring
    have hend : renderer.framebufferWidth.toNat * (row + 1) ≤
        renderer.framebufferWidth.toNat * renderer.framebufferHeight.toNat :=
      Nat.mul_le_mul_left _ (List.mem_range.mp hmem)
    rw [Nat.mul_succ] at hend
    rw [hstart]
    exact readAt_replicate (by omega) fun i hlow hhigh => hzero i (by omega) (by omega)
  unfold Renderer.presentFramebuffer Renderer.updateTexture blankFrame
  rw [hpitch, if_neg (lt_irrefl _), Int.toNat_natCast]
  refine (@mapM_ok_replicate _ _ _ _ _ (List.replicate (4 * renderer.framebufferWidth.toNat) 0)
    fun row hmem => ?_).trans ?_
  · rw [hrow row hmem]
  · rw [List.length_range]

end Frames

/-- What a session relies on: the program only names registers there are, and the
framebuffer, inside the memory, holds zeros. -/
structure Ready (app : App Handler) : Prop where
  below : ∀ instr ∈ app.emulator.instructions, OperandsBelow instr
  blank : app.renderer.presentFramebuffer app.emulator.memory app.framebuffer =
    .ok (blankFrame app.renderer.framebufferWidth.toNat app.renderer.framebufferHeight.toNat)

/-- A started application, its width one that SDL can be given a pitch for, is ready. -/
theorem ready_of_started {host : Host} {std : StdSort SegmentHeader.less} {native : Endian}
    {args : List String} {app : App Handler} (h : App.new host std native args = .ok app)
    (hwidth : app.renderer.framebufferWidth.toNat < 2 ^ 29) : Ready app := by
  obtain ⟨base, program, loaded, hoptions, -, hrenderer, -, hload, itemCount, hcount, hallocate,
    hspan, hemulator, -, -⟩ := appNew_ok h
  obtain ⟨⟨-, hwide⟩, -, hhigh⟩ := optionsParse_ok hoptions
  obtain ⟨hproduct, hexact⟩ := itemCount_toNat hwide hhigh
  rw [← hcount] at hproduct
  have hsize : ItemType.pixel.size = 4 := rfl
  obtain ⟨-, hinside, hlength, hbytes⟩ := allocateArray_zero rfl
    (by rw [hsize, hproduct]; exact hexact) hallocate
  rw [hsize, hproduct] at hinside hbytes
  constructor
  case below =>
    obtain ⟨data, code, mapped, -, -, hcode⟩ := loadElf_ok hload
    obtain ⟨buffer, instructions, -, hdecode, rfl⟩ := mapCodeSegments_ok hcode
    rw [hemulator]
    exact fun instr hmem => (decodeInstructions_below hdecode instr hmem).toOperandsBelow
  case blank =>
    rw [hrenderer] at hwidth ⊢
    refine presentFramebuffer_blank hwidth (by rw [hlength]; exact hinside) fun i hlow hend => ?_
    rw [hbytes i, if_pos ⟨hlow, hend⟩]

section Tick
variable {app : App Handler} {iterations : Nat}

/-- The application with what a session can change. -/
def withGuest (app : App Handler) (thread : Thread) (keyEvents : List (BitVec 32)) :
    App Handler := { app with mainThread := thread, keyEvents := keyEvents }

theorem run_defined (hready : Ready app) (thread : Thread) :
    app.emulator.run iterations thread ≠ .undefinedBehaviour :=
  runLoop_defined hready.below iterations

/-- A tick presents the blank frame at the test that the run returns from, fails at the
instruction it throws at, and otherwise has come to the last test looked at. -/
theorem tick_outcome (hready : Ready app) :
    (∃ k thread, k < iterations ∧
        threadAtTest app.emulator.instructions app.mainThread k = some thread ∧
        loopTest app.emulator.instructions thread = false ∧
        app.tick iterations = .presented
          (blankFrame app.renderer.framebufferWidth.toNat app.renderer.framebufferHeight.toNat)
          { app with mainThread := thread }) ∨
      (∃ k thread, k < iterations ∧
        threadAtTest app.emulator.instructions app.mainThread k = some thread ∧
        FaultsAt app.emulator.instructions thread ∧
        app.tick iterations = .threw unsupportedInstruction
          { app with mainThread := { thread with cycleCounter := thread.cycleCounter + 1 } }) ∨
      ∃ thread, threadAtTest app.emulator.instructions app.mainThread iterations = some thread ∧
        app.tick iterations = .running { app with mainThread := thread } := by
  have houtcome := runLoop_outcome app.emulator.instructions app.mainThread iterations
  have hdefined := @run_defined _ _ iterations hready app.mainThread
  unfold run at hdefined
  unfold App.tick run
  generalize runLoop app.emulator.instructions iterations app.mainThread = result
    at houtcome hdefined ⊢
  cases houtcome with
  | returned k thread hk hreach htest =>
    refine .inl ⟨k, thread, hk, hreach, htest, ?_⟩
    simp only [hready.blank]
  | threw k thread object hk hreach htest hiter =>
    obtain ⟨hfault, rfl⟩ := iteration_thrown_iff.mp hiter
    exact .inr (.inl ⟨k, thread, hk, hreach, hfault, rfl⟩)
  | undefinedBehaviour => exact absurd rfl hdefined
  | running thread hreach => exact .inr (.inr ⟨thread, hreach, rfl⟩)

/-- Once the program counter is behind the program, a tick only presents the frame. -/
theorem tick_at_rest (hready : Ready app)
    (hrest : loopTest app.emulator.instructions app.mainThread = false)
    (hiterations : 0 < iterations) :
    app.tick iterations = .presented
      (blankFrame app.renderer.framebufferWidth.toNat app.renderer.framebufferHeight.toNat)
      app := by
  have hrun : app.emulator.run iterations app.mainThread = .returned app.mainThread := by
    obtain ⟨more, rfl⟩ := Nat.exists_eq_succ_of_ne_zero (Nat.pos_iff_ne_zero.mp hiterations)
    unfold run
    rw [runLoop, hrest]
    rfl
  unfold App.tick
  simp only [hrun, hready.blank]

end Tick

section Keys

/-- A callback whose key code has a negation. -/
def Representable (callback : Callback) : Prop :=
  callback ≠ .event (.keyUp (BitVec.intMin 32))

/-- What a key event adds to the buffer. -/
def storedKey : Callback → Option (BitVec 32)
  | .event (.keyDown key) => if key = keyUnknown then none else some key
  | .event (.keyUp key) => if key = keyUnknown then none else some (-key)
  | _ => none

theorem handleKey_eq {app : App Handler} {key : BitVec 32} {isKeyDown : Bool}
    (h : isKeyDown = true ∨ key ≠ BitVec.intMin 32) :
    app.handleKey key isKeyDown = .ok { app with keyEvents := app.keyEvents ++
      (if key = keyUnknown then none else some (if isKeyDown then key else -key)).toList } := by
  unfold App.handleKey
  by_cases hunknown : key = keyUnknown
  · simp [hunknown]
  · cases isKeyDown with
    | true => simp [hunknown]
    | false =>
      have hkey : key ≠ BitVec.intMin 32 := by simpa using h
      simp [hunknown, hkey]

/-- An event is stored, or asks the application to quit. -/
theorem sdlAppEvent_cases {process : Process Handler} {app : App Handler} {event : SdlEvent}
    (happ : process.app = some app) (h : Representable (.event event)) :
    (event = .quit ∧ sdlAppEvent process event = .ended .Success process) ∨
      (event ≠ .quit ∧ sdlAppEvent process event = .continuing { process with
        app := some { app with
          keyEvents := app.keyEvents ++ (storedKey (.event event)).toList } }) := by
  cases event with
  | quit => exact .inl ⟨rfl, rfl⟩
  | keyDown key =>
    refine .inr ⟨nofun, ?_⟩
    simp [sdlAppEvent, keyEvent, happ, @handleKey_eq _ app key true (.inl rfl), storedKey]
  | keyUp key =>
    have hkey : key ≠ BitVec.intMin 32 := by
      rintro rfl
      exact h rfl
    refine .inr ⟨nofun, ?_⟩
    simp [sdlAppEvent, keyEvent, happ, @handleKey_eq _ app key false (.inr hkey), storedKey]
  | other =>
    refine .inr ⟨nofun, ?_⟩
    simp [sdlAppEvent, storedKey, ← happ]

end Keys

/-- The process of the started application: what a session can change of it, and the frames
it has presented, the first of them when the program returned. -/
structure Alive (app : App Handler) (process : Process Handler) : Prop where
  guest : ∃ thread keyEvents, process.app = some (withGuest app thread keyEvents) ∧
    (process.frames ≠ [] → loopTest app.emulator.instructions thread = false)
  blank : ∀ frame ∈ process.frames, frame =
    blankFrame app.renderer.framebufferWidth.toNat app.renderer.framebufferHeight.toNat

/-- A session under way, or one that was asked to quit, or one that met an instruction that
is not supported and has said so, before its first frame. -/
inductive Sound (app : App Handler) : Status Handler → Prop where
  | continuing (process : Process Handler) (halive : Alive app process)
    (herrors : process.errors = []) : Sound app (.continuing process)
  | running (process : Process Handler) (halive : Alive app process)
    (herrors : process.errors = []) : Sound app (.running process)
  | quit (process : Process Handler) (halive : Alive app process)
    (herrors : process.errors = []) : Sound app (.ended .Success process)
  | failed (process : Process Handler) (halive : Alive app process)
    (hframes : process.frames = [])
    (herrors : process.errors = ["Error during emulation: Unsupported instruction"]) :
    Sound app (.ended .Failure process)

section Step
variable {app : App Handler} {process : Process Handler} {callback : Callback}

theorem ready_withGuest (hready : Ready app) (thread : Thread) (keyEvents : List (BitVec 32)) :
    Ready (withGuest app thread keyEvents) := ⟨hready.below, hready.blank⟩

theorem iterate_presented {current after : App Handler} {iterations : Nat}
    {rows : List (List Byte)} (happ : process.app = some current)
    (htick : current.tick iterations = .presented rows after) :
    sdlAppIterate process iterations =
      .continuing { process with app := some after, frames := process.frames ++ [rows] } := by
  simp only [sdlAppIterate, happ, htick]

theorem iterate_running {current after : App Handler} {iterations : Nat}
    (happ : process.app = some current) (htick : current.tick iterations = .running after) :
    sdlAppIterate process iterations = .running { process with app := some after } := by
  simp only [sdlAppIterate, happ, htick]

theorem iterate_threw {current after : App Handler} {iterations : Nat}
    (happ : process.app = some current)
    (htick : current.tick iterations = .threw unsupportedInstruction after) :
    sdlAppIterate process iterations = .ended .Failure { process with
      app := some after
      errors := process.errors ++ ["Error during emulation: Unsupported instruction"] } := by
  simp only [sdlAppIterate, happ, htick]
  rfl

theorem sound_iterate (hready : Ready app) (halive : Alive app process)
    (herrors : process.errors = []) (iterations : Nat) :
    Sound app (sdlAppIterate process iterations) := by
  obtain ⟨⟨thread, keyEvents, happ, hrest⟩, hblank⟩ := halive
  have hguest := ready_withGuest hready thread keyEvents
  have hmore : ∀ frame ∈ process.frames ++ [blankFrame app.renderer.framebufferWidth.toNat
      app.renderer.framebufferHeight.toNat], frame =
      blankFrame app.renderer.framebufferWidth.toNat app.renderer.framebufferHeight.toNat := by
    intro frame hmem
    rcases List.mem_append.mp hmem with hmem | hmem
    · exact hblank frame hmem
    · exact List.mem_singleton.mp hmem
  by_cases hfirst : process.frames = []
  · have hguestRest (after : Thread) : process.frames ≠ [] →
        loopTest app.emulator.instructions after = false := fun hne => absurd hfirst hne
    rcases @tick_outcome _ _ iterations hguest with ⟨k, after, -, -, htest, htick⟩ |
      ⟨k, after, -, -, -, htick⟩ | ⟨after, -, htick⟩
    · rw [iterate_presented happ htick]
      exact .continuing _ ⟨⟨after, keyEvents, rfl, fun _ => htest⟩, hmore⟩ herrors
    · rw [iterate_threw happ htick]
      refine .failed _ ⟨⟨_, keyEvents, rfl, hguestRest _⟩, hblank⟩ hfirst ?_
      rw [herrors]
      rfl
    · rw [iterate_running happ htick]
      exact .running _ ⟨⟨after, keyEvents, rfl, hguestRest after⟩, hblank⟩ herrors
  · cases iterations with
    | zero =>
      rw [@iterate_running _ _ _ (withGuest app thread keyEvents) 0 happ rfl]
      exact .running _ ⟨⟨thread, keyEvents, rfl, hrest⟩, hblank⟩ herrors
    | succ iterations =>
      have htick := tick_at_rest hguest (hrest hfirst) (Nat.succ_pos iterations)
      rw [iterate_presented happ htick]
      exact .continuing _ ⟨⟨thread, keyEvents, rfl, fun _ => hrest hfirst⟩, hmore⟩ herrors

theorem sound_event (halive : Alive app process) (herrors : process.errors = []) {event : SdlEvent}
    (hkey : Representable (.event event)) : Sound app (sdlAppEvent process event) := by
  obtain ⟨thread, keyEvents, happ, hrest⟩ := halive.guest
  rcases sdlAppEvent_cases happ hkey with ⟨-, hquit⟩ | ⟨-, hstored⟩
  · rw [hquit]
    exact .quit _ halive herrors
  · rw [hstored]
    exact .continuing _ ⟨⟨thread, _, rfl, hrest⟩, halive.blank⟩ herrors

theorem sound_next (hready : Ready app) {status : Status Handler} (hsound : Sound app status)
    (hkey : Representable callback) : Sound app (status.next callback) := by
  cases hsound with
  | continuing process halive herrors =>
    cases callback with
    | iterate iterations => exact sound_iterate hready halive herrors iterations
    | event event => exact sound_event halive herrors hkey
  | running process halive herrors => exact .running process halive herrors
  | quit process halive herrors => exact .quit process halive herrors
  | failed process halive hframes herrors => exact .failed process halive hframes herrors

theorem sound_after (hready : Ready app) {status : Status Handler} (hsound : Sound app status)
    {callbacks : List Callback} (hkeys : ∀ callback ∈ callbacks, Representable callback) :
    Sound app (status.after callbacks) := by
  induction callbacks generalizing status with
  | nil => exact hsound
  | cons callback callbacks ih =>
    obtain ⟨hfirst, hrest⟩ := List.forall_mem_cons.mp hkeys
    exact ih (sound_next hready hsound hfirst) hrest

end Step

section Started
variable {host : Host} {std : StdSort SegmentHeader.less} {native : Endian} {args : List String}
  {app : App Handler}

theorem sdlAppInit_started (h : App.new host std native args = .ok app) :
    sdlAppInit host std native true args = .continuing { app := some app } := by
  unfold sdlAppInit
  rw [h]
  rfl

theorem alive_started (app : App Handler) : Alive app { app := some app } :=
  ⟨⟨app.mainThread, app.keyEvents, rfl, fun h => absurd rfl h⟩, by simp⟩

end Started

/-- Every session of a started application is sound, whatever SDL calls in whatever order. -/
theorem session_sound {host : Host} {std : StdSort SegmentHeader.less} {native : Endian}
    {args : List String} {app : App Handler} (h : App.new host std native args = .ok app)
    (hwidth : app.renderer.framebufferWidth.toNat < 2 ^ 29) (callbacks : List Callback)
    (hkeys : ∀ callback ∈ callbacks, Representable callback) :
    Sound app ((sdlAppInit host std native true args).after callbacks) := by
  rw [sdlAppInit_started h]
  exact sound_after (ready_of_started h hwidth) (.continuing _ (alive_started app) rfl) hkeys

theorem session_sound_small : ∃ app : App Unit, Sound app
    ((sdlAppInit smallHost insertionSort .little true []).after
      [.iterate 2, .event (.keyDown 97), .iterate 1, .event .quit]) := by
  obtain ⟨app, happ, hwidth, -⟩ := appNew_small
  exact ⟨app, session_sound happ (by omega) _ (by simp [Representable])⟩

/-- Nothing but a request to quit is left to happen: each later tick presents the frame
again, with the thread as it is. -/
inductive AtRest (app : App Handler) (thread : Thread) : Status Handler → Prop where
  | continuing (process : Process Handler) (keyEvents : List (BitVec 32))
    (happ : process.app = some (withGuest app thread keyEvents))
    (herrors : process.errors = []) : AtRest app thread (.continuing process)
  | quit (process : Process Handler) (keyEvents : List (BitVec 32))
    (happ : process.app = some (withGuest app thread keyEvents))
    (herrors : process.errors = []) : AtRest app thread (.ended .Success process)

section Rest
variable {app : App Handler} {thread : Thread} {callback : Callback}

theorem atRest_next (hready : Ready app)
    (htest : loopTest app.emulator.instructions thread = false) {status : Status Handler}
    (hrest : AtRest app thread status) (hkey : Representable callback)
    (hiterations : callback ≠ .iterate 0) : AtRest app thread (status.next callback) := by
  cases hrest with
  | continuing process keyEvents happ herrors =>
    cases callback with
    | iterate iterations =>
      have hpositive : 0 < iterations := Nat.pos_iff_ne_zero.mpr fun hzero =>
        hiterations (congrArg Callback.iterate hzero)
      have htick := tick_at_rest (ready_withGuest hready thread keyEvents) htest hpositive
      show AtRest app thread (sdlAppIterate process iterations)
      rw [iterate_presented happ htick]
      exact .continuing _ keyEvents rfl herrors
    | event event =>
      show AtRest app thread (sdlAppEvent process event)
      rcases sdlAppEvent_cases happ hkey with ⟨-, hquit⟩ | ⟨-, hstored⟩
      · rw [hquit]
        exact .quit _ keyEvents happ herrors
      · rw [hstored]
        exact .continuing _ _ rfl herrors
  | quit process keyEvents happ herrors => exact .quit process keyEvents happ herrors

theorem atRest_after (hready : Ready app)
    (htest : loopTest app.emulator.instructions thread = false) {status : Status Handler}
    (hrest : AtRest app thread status) {callbacks : List Callback}
    (hkeys : ∀ callback ∈ callbacks, Representable callback)
    (hiterations : ∀ callback ∈ callbacks, callback ≠ .iterate 0) :
    AtRest app thread (status.after callbacks) := by
  induction callbacks generalizing status with
  | nil => exact hrest
  | cons callback callbacks ih =>
    obtain ⟨hkey, hlaterKeys⟩ := List.forall_mem_cons.mp hkeys
    obtain ⟨hiterate, hlaterIterations⟩ := List.forall_mem_cons.mp hiterations
    exact ih (atRest_next hready htest hrest hkey hiterate) hlaterKeys hlaterIterations

theorem after_append (status : Status Handler) (before callbacks : List Callback) :
    status.after (before ++ callbacks) = (status.after before).after callbacks :=
  List.foldl_append

end Rest

/-- The program runs once: after its first frame the thread stays as it is and the session
can only be asked to quit. -/
theorem session_at_rest {host : Host} {std : StdSort SegmentHeader.less} {native : Endian}
    {args : List String} {app : App Handler} (h : App.new host std native args = .ok app)
    (hwidth : app.renderer.framebufferWidth.toNat < 2 ^ 29) {before : List Callback}
    {process : Process Handler}
    (hbefore : (sdlAppInit host std native true args).after before = .continuing process)
    (hframe : process.frames ≠ []) (callbacks : List Callback)
    (hkeys : ∀ callback ∈ before ++ callbacks, Representable callback)
    (hiterations : ∀ callback ∈ callbacks, callback ≠ .iterate 0) :
    ∃ thread, AtRest app thread (.continuing process) ∧
      AtRest app thread ((sdlAppInit host std native true args).after (before ++ callbacks)) := by
  obtain ⟨hkeysBefore, hkeysAfter⟩ := List.forall_mem_append.mp hkeys
  have hready := ready_of_started h hwidth
  have hsound : Sound app ((sdlAppInit host std native true args).after before) := by
    rw [sdlAppInit_started h]
    exact sound_after hready (.continuing _ (alive_started app) rfl) hkeysBefore
  rw [hbefore] at hsound
  cases hsound with
  | continuing process halive herrors =>
    obtain ⟨thread, keyEvents, happ, htest⟩ := halive.guest
    have hrest : AtRest app thread (.continuing process) :=
      .continuing process keyEvents happ herrors
    refine ⟨thread, hrest, ?_⟩
    rw [after_append, hbefore]
    exact atRest_after hready (htest hframe) hrest hkeysAfter hiterations

/-- The frames of a session that goes on. -/
def framesSoFar : Status Handler → Option (List (List (List Byte)))
  | .continuing process => some process.frames
  | _ => none

theorem after_small : ∃ process : Process Unit,
    (sdlAppInit smallHost insertionSort .little true []).after
        [.iterate 2, .event (.keyUp 97)] = .continuing process ∧ process.frames ≠ [] := by
  have hframes : framesSoFar ((sdlAppInit smallHost insertionSort .little true [] :
      Status Unit).after [.iterate 2, .event (.keyUp 97)]) = some [[List.replicate 8 0]] := by
    decide +kernel
  unfold framesSoFar at hframes
  split at hframes
  · next process h => exact ⟨process, h, by simp [Option.some.inj hframes]⟩
  · cases hframes

theorem session_at_rest_small : ∃ (app : App Unit) (process : Process Unit) (thread : Thread),
    AtRest app thread (.continuing process) ∧
      AtRest app thread ((sdlAppInit smallHost insertionSort .little true []).after
        ([.iterate 2, .event (.keyUp 97)] ++ [.iterate 1, .event (.keyDown 98)])) := by
  obtain ⟨app, happ, hwidth, -⟩ := appNew_small
  obtain ⟨process, hprocess, hframes⟩ := after_small
  have hkeys : ∀ callback ∈ [Callback.iterate 2, .event (.keyUp 97)] ++
      [.iterate 1, .event (.keyDown 98)], Representable callback := by
    simp [Representable]
    decide
  exact ⟨app, process, session_at_rest happ (by omega) hprocess hframes _ hkeys (by simp)⟩

/-- The key a callback reports, and whether it went down; SDL's unknown key is not reported. -/
def reportedKey : Callback → Option (BitVec 32 × Bool)
  | .event (.keyDown key) => if key = keyUnknown then none else some (key, true)
  | .event (.keyUp key) => if key = keyUnknown then none else some (key, false)
  | _ => none

/-- What the guest is told a stored number means. -/
def readKey (stored : BitVec 32) : BitVec 32 × Bool :=
  if 0 < stored.toInt then (stored, true) else (-stored, false)

section Log
variable {app : App Handler} {process process' : Process Handler} {callback : Callback}

theorem storedKey_eq (callback : Callback) :
    storedKey callback = (reportedKey callback).map fun key =>
      if key.2 then key.1 else -key.1 := by
  cases callback with
  | iterate iterations => rfl
  | event event =>
    cases event with
    | keyDown key =>
      by_cases hunknown : key = keyUnknown <;> simp [storedKey, reportedKey, hunknown]
    | keyUp key => by_cases hunknown : key = keyUnknown <;> simp [storedKey, reportedKey, hunknown]
    | quit => rfl
    | other => rfl

/-- A callback after which the session goes on adds its key to the buffer. -/
theorem next_continuing (happ : process.app = some app)
    (h : (Status.continuing process).next callback = .continuing process') :
    Representable callback ∧ ∃ thread, process'.app = some (withGuest app thread
      (app.keyEvents ++ (storedKey callback).toList)) := by
  cases callback with
  | iterate iterations =>
    refine ⟨nofun, ?_⟩
    replace h : sdlAppIterate process iterations = .continuing process' := h
    unfold sdlAppIterate at h
    simp only [happ] at h
    unfold App.tick at h
    cases hrun : app.emulator.run iterations app.mainThread with
    | returned thread =>
      cases hframe : app.renderer.presentFramebuffer app.emulator.memory app.framebuffer with
      | ok rows =>
        simp only [hrun, hframe] at h
        obtain rfl := Status.continuing.inj h
        exact ⟨thread, by simp [withGuest, storedKey]⟩
      | error e =>
        cases e with
        | thrown object => cases object <;> simp [hrun, hframe, catchException] at h
        | undefinedBehaviour => simp [hrun, hframe] at h
    | threw object thread => cases object <;> simp [hrun, catchException] at h
    | undefinedBehaviour => simp [hrun] at h
    | running thread => simp [hrun] at h
  | event event =>
    replace h : sdlAppEvent process event = .continuing process' := h
    have hkey : Representable (.event event) := by
      intro hevent
      obtain rfl := Callback.event.inj hevent
      have hintMin : BitVec.intMin 32 ≠ keyUnknown := by decide
      simp [sdlAppEvent, keyEvent, happ, App.handleKey, hintMin] at h
    refine ⟨hkey, app.mainThread, ?_⟩
    rcases sdlAppEvent_cases happ hkey with ⟨-, hquit⟩ | ⟨-, hstored⟩
    · rw [hquit] at h
      cases h
    · rw [hstored] at h
      obtain rfl := Status.continuing.inj h
      rfl

theorem after_ended {status : Status Handler} (h : ∀ process, status ≠ .continuing process)
    (callbacks : List Callback) : status.after callbacks = status := by
  induction callbacks with
  | nil => rfl
  | cons callback callbacks ih =>
    have hstays : status.next callback = status := by
      cases status with
      | continuing process => exact absurd rfl (h process)
      | ended result process => rfl
      | running process => rfl
      | aborted e => rfl
    show (status.next callback).after callbacks = status
    rw [hstays, ih]

/-- While the session goes on, the buffer holds the keys of all its callbacks, in order. -/
theorem after_continuing {callbacks : List Callback} (happ : process.app = some app)
    (h : (Status.continuing process).after callbacks = .continuing process') :
    (∀ callback ∈ callbacks, Representable callback) ∧ ∃ thread, process'.app =
      some (withGuest app thread (app.keyEvents ++ callbacks.filterMap storedKey)) := by
  induction callbacks generalizing process app with
  | nil =>
    obtain rfl := Status.continuing.inj h
    refine ⟨by simp, app.mainThread, ?_⟩
    rw [happ, List.filterMap_nil, List.append_nil]
    rfl
  | cons callback callbacks ih =>
    replace h : ((Status.continuing process).next callback).after callbacks =
        .continuing process' := h
    cases hnext : (Status.continuing process).next callback with
    | continuing middle =>
      rw [hnext] at h
      obtain ⟨hkey, thread, hmiddle⟩ := next_continuing happ hnext
      obtain ⟨hkeys, last, hlast⟩ := ih hmiddle h
      refine ⟨List.forall_mem_cons.mpr ⟨hkey, hkeys⟩, last, ?_⟩
      have hstored : (callback :: callbacks).filterMap storedKey =
          (storedKey callback).toList ++ callbacks.filterMap storedKey := by
        cases hcase : storedKey callback with
        | none => rw [List.filterMap_cons_none hcase]; rfl
        | some key => rw [List.filterMap_cons_some hcase]; rfl
      rw [hlast, hstored, ← List.append_assoc]
      rfl
    | ended result middle =>
      rw [hnext, after_ended (by simp)] at h
      cases h
    | running middle =>
      rw [hnext, after_ended (by simp)] at h
      cases h
    | aborted e =>
      rw [hnext, after_ended (by simp)] at h
      cases h

theorem reportedKey_some {key : BitVec 32 × Bool} (h : reportedKey callback = some key)
    (hrepresentable : Representable callback) :
    key.1 ≠ keyUnknown ∧ (key.2 = true ∨ key.1 ≠ BitVec.intMin 32) := by
  unfold reportedKey at h
  split at h
  · split at h
    · cases h
    next hknown =>
    obtain rfl := Option.some.inj h
    exact ⟨hknown, .inl rfl⟩
  · split at h
    · cases h
    next key hknown =>
    obtain rfl := Option.some.inj h
    refine ⟨hknown, .inr ?_⟩
    rintro rfl
    exact hrepresentable rfl
  · cases h

/-- A reported key is read back from what is stored of it if its code is positive. -/
theorem readKey_stored_iff {key : BitVec 32} {isDown : Bool} (hknown : key ≠ keyUnknown)
    (hrepresentable : isDown = true ∨ key ≠ BitVec.intMin 32) :
    readKey (if isDown then key else -key) = (key, isDown) ↔ key.toNat < 2 ^ 31 := by
  have hpositive : 0 < key.toNat := by
    apply Nat.pos_of_ne_zero
    exact fun hzero => hknown (BitVec.eq_of_toNat_eq hzero)
  have hlt := key.isLt
  have hnegative : (-key).toNat = 2 ^ 32 - key.toNat := by
    rw [BitVec.toNat_neg, Nat.mod_eq_of_lt (by omega)]
  unfold readKey
  cases isDown with
  | true =>
    simp only [if_true]
    rw [BitVec.toInt_eq_toNat_cond]
    split
    · simp only [hpositive, Nat.cast_pos, if_true, true_iff]
      omega
    · rw [if_neg (by omega)]
      simp only [Prod.mk.injEq, Bool.false_eq_true, and_false, false_iff]
      omega
  | false =>
    have hmin : key.toNat ≠ 2 ^ 31 := fun hkey =>
      absurd (BitVec.eq_of_toNat_eq hkey) (by simpa using hrepresentable)
    simp only [Bool.false_eq_true, if_false]
    rw [BitVec.toInt_eq_toNat_cond, hnegative]
    split
    · rw [if_pos (by omega)]
      simp only [Prod.mk.injEq, Bool.true_eq_false, and_false, false_iff]
      omega
    · rw [if_neg (by omega)]
      simp only [BitVec.neg_neg, true_iff]
      omega

theorem map_eq_self_iff {α : Type} {f : α → α} {items : List α} :
    items.map f = items ↔ ∀ item ∈ items, f item = item := by
  induction items with
  | nil => simp
  | cons item items ih => simp [ih]

end Log

/-- The key buffer tells the reported keys, in their order and with their direction, exactly
while every code is a positive `int32_t`. -/
theorem keys_recovered_iff {host : Host} {std : StdSort SegmentHeader.less} {native : Endian}
    {args : List String} {app : App Handler} (h : App.new host std native args = .ok app)
    {callbacks : List Callback} {process : Process Handler}
    (hcontinuing : (sdlAppInit host std native true args).after callbacks =
      .continuing process) :
    ∃ current, process.app = some current ∧
      (current.keyEvents.map readKey = callbacks.filterMap reportedKey ↔
        ∀ key ∈ callbacks.filterMap reportedKey, key.1.toNat < 2 ^ 31) := by
  rw [sdlAppInit_started h] at hcontinuing
  obtain ⟨hkeys, thread, happ⟩ := after_continuing rfl hcontinuing
  obtain ⟨-, -, -, -, -, -, -, -, -, -, -, -, -, -, hempty⟩ := appNew_ok h
  refine ⟨_, happ, ?_⟩
  have hstored : (app.keyEvents ++ callbacks.filterMap storedKey).map readKey =
      (callbacks.filterMap reportedKey).map fun key =>
        readKey (if key.2 then key.1 else -key.1) := by
    rw [hempty, List.nil_append, funext storedKey_eq, ← List.map_filterMap, List.map_map]
    rfl
  show (app.keyEvents ++ callbacks.filterMap storedKey).map readKey = _ ↔ _
  rw [hstored, map_eq_self_iff]
  refine forall₂_congr fun key hmem => ?_
  obtain ⟨callback, hcallback, hkey⟩ := List.mem_filterMap.mp hmem
  obtain ⟨hknown, hrepresentable⟩ := reportedKey_some hkey (hkeys callback hcallback)
  exact readKey_stored_iff hknown hrepresentable

theorem keys_recovered_iff_small : ∃ (process : Process Unit) (app : App Unit),
    (sdlAppInit smallHost insertionSort .little true []).after
        [.iterate 2, .event (.keyUp 97)] = .continuing process ∧
      process.app = some app ∧
      (app.keyEvents.map readKey = [(97, false)] ↔
        ∀ key ∈ [((97 : BitVec 32), false)], key.1.toNat < 2 ^ 31) := by
  obtain ⟨app, happ, -⟩ := appNew_small
  obtain ⟨process, hprocess, -⟩ := after_small
  obtain ⟨current, hcurrent, hkeys⟩ := keys_recovered_iff happ hprocess
  exact ⟨process, current, hprocess, hcurrent, hkeys⟩

end RiscvEmulator.Guarantees
