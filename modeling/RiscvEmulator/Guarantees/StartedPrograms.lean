import RiscvEmulator.Guarantees.AssembledPrograms
import RiscvEmulator.Guarantees.Session

/-!
# Sessions of an assembled program

An application that is started on an assembled program carries the control-flow machine's run
on the program as it was written, from registers of zeros. The first iteration callback makes
the whole run: a frame means that the machine has left the program, a failure that it stands
at an instruction the emulator has no case for, and without either it has made a step for
each test of the loop. The data is in memory where the framebuffer does not lie over it.
-/
namespace RiscvEmulator.Guarantees
open Source Source.Emulator Spec Library PartialRun

variable {Handler : Type}

/-- The machine, started with zeros, has after `k` instructions what the thread has. -/
def Carries (instrs : List Instruction) (thread : Thread) (k : Nat) : Prop :=
  Hart.after instrs (hartOf {}) k = some (hartOf thread)

/-- The process between two callbacks: no iteration was made yet and nothing has run, or the
machine has left the program. -/
inductive Between (instrs : List Instruction) (app : App Handler) (callbacks : List Callback)
    (process : Process Handler) : Prop where
  | waiting (keyEvents : List (BitVec 32)) (hmade : ∀ iterations, .iterate iterations ∉ callbacks)
    (happ : process.app = some (withGuest app {} keyEvents)) (hframes : process.frames = []) :
    Between instrs app callbacks process
  | left (thread : Thread) (keyEvents : List (BitVec 32)) (k : Nat)
    (hmade : ∃ iterations, .iterate iterations ∈ callbacks)
    (happ : process.app = some (withGuest app thread keyEvents)) (hframes : process.frames ≠ [])
    (hcarries : Carries instrs thread k)
    (hleft : instrs.length ≤ thread.programCounter.toNat / 4) :
    Between instrs app callbacks process

/-- How a session that has made the callbacks stands to the machine's run. -/
inductive TracksMachine (instrs : List Instruction) (app : App Handler)
    (callbacks : List Callback) : Status Handler → Prop where
  | continuing (process : Process Handler) (hbetween : Between instrs app callbacks process) :
    TracksMachine instrs app callbacks (.continuing process)
  -- The callbacks after the request to quit are not made.
  | quit (process : Process Handler) (before : List Callback) (hbefore : before <+: callbacks)
    (hbetween : Between instrs app before process) :
    TracksMachine instrs app callbacks (.ended .Success process)
  | failed (process : Process Handler) (thread : Thread) (keyEvents : List (BitVec 32)) (k : Nat)
    (hmade : ∃ iterations, .iterate iterations ∈ callbacks)
    (happ : process.app = some (withGuest app thread keyEvents)) (hframes : process.frames = [])
    (hcarries : Carries instrs thread k) (hfault : FaultsAt instrs thread) :
    TracksMachine instrs app callbacks (.ended .Failure process)
  | running (process : Process Handler) (thread : Thread) (keyEvents : List (BitVec 32))
    (iterations : Nat) (hmade : .iterate iterations ∈ callbacks)
    (happ : process.app = some (withGuest app thread keyEvents)) (hframes : process.frames = [])
    (hcarries : Carries instrs thread iterations) :
    TracksMachine instrs app callbacks (.running process)

/-- An application ready to run the assembled program. -/
structure Assembled (instrs : List Instruction) (app : App Handler) : Prop where
  ready : Ready app
  instructions : app.emulator.instructions = instrs.map shortened
  carries : ∀ (t : Thread) (k : Nat), Hart.after instrs (hartOf t) k =
    (threadAtTest (instrs.map shortened) t k).map hartOf

section Step
variable {instrs : List Instruction} {app : App Handler} {process : Process Handler}
  {made : List Callback} {thread : Thread} {iterations k : Nat}

theorem Assembled.carries_of_reach (h : Assembled instrs app)
    (hreach : threadAtTest app.emulator.instructions {} k = some thread) :
    Carries instrs thread k := by
  rw [h.instructions] at hreach
  unfold Carries
  rw [h.carries, hreach]
  rfl

/-- The assembler keeps the types, so the machine stands at what the loop throws at. -/
theorem Assembled.faultsAt (h : Assembled instrs app)
    (hfault : FaultsAt app.emulator.instructions thread) : FaultsAt instrs thread := by
  obtain ⟨instr, hfetch, hunsupported⟩ := hfault
  rw [h.instructions, List.getElem?_map] at hfetch
  obtain ⟨source, hsource, rfl⟩ := Option.map_eq_some_iff.mp hfetch
  rw [shortened_type] at hunsupported
  exact ⟨source, hsource, hunsupported⟩

theorem Assembled.loopTest_iff (h : Assembled instrs app) (thread : Thread) :
    loopTest app.emulator.instructions thread = false ↔
      instrs.length ≤ thread.programCounter.toNat / 4 := by
  rw [h.instructions, loopTest, decide_eq_false_iff_not, List.length_map,
    Thread.getInstructionIndex_toNat, Nat.not_lt]

/-- The first iteration makes the machine's run, and a later one nothing. -/
theorem tracks_iterate (h : Assembled instrs app) (hbetween : Between instrs app made process)
    (hiterations : iterations ≠ 0) :
    TracksMachine instrs app (made ++ [.iterate iterations])
      (sdlAppIterate process iterations) := by
  have hmade : .iterate iterations ∈ made ++ [.iterate iterations] := by simp
  cases hbetween with
  | waiting keyEvents hunmade happ hframes =>
    have hguest := ready_withGuest h.ready {} keyEvents
    rcases @tick_outcome _ _ iterations hguest with ⟨k, thread, -, hreach, htest, htick⟩ |
      ⟨k, thread, -, hreach, hfault, htick⟩ | ⟨thread, hreach, htick⟩
    · rw [iterate_presented happ htick]
      exact .continuing _ (.left thread keyEvents k ⟨_, hmade⟩ rfl (by simp)
        (h.carries_of_reach hreach) ((h.loopTest_iff thread).mp htest))
    · have hcarries : Carries instrs thread k := h.carries_of_reach hreach
      rw [iterate_threw happ htick]
      exact .failed _ _ keyEvents k ⟨_, hmade⟩ rfl hframes hcarries (h.faultsAt hfault)
    · rw [iterate_running happ htick]
      exact .running _ thread keyEvents iterations hmade rfl hframes (h.carries_of_reach hreach)
  | left thread keyEvents k hearlier happ hframes hcarries hleft =>
    have htick := tick_at_rest (ready_withGuest h.ready thread keyEvents)
      ((h.loopTest_iff thread).mpr hleft) (Nat.pos_iff_ne_zero.mpr hiterations)
    rw [iterate_presented happ htick]
    exact .continuing _ (.left thread keyEvents k ⟨_, hmade⟩ rfl (by simp) hcarries hleft)

/-- An event leaves the thread and the frames alone. -/
theorem tracks_event (hbetween : Between instrs app made process) {event : SdlEvent}
    (hkey : Representable (.event event)) :
    TracksMachine instrs app (made ++ [.event event]) (sdlAppEvent process event) := by
  have hlonger := List.prefix_append made [.event event]
  cases hbetween with
  | waiting keyEvents hmade happ hframes =>
    rcases sdlAppEvent_cases happ hkey with ⟨-, hquit⟩ | ⟨-, hstored⟩
    · rw [hquit]
      exact .quit _ made hlonger (.waiting keyEvents hmade happ hframes)
    · rw [hstored]
      exact .continuing _ (.waiting _ (by simpa using hmade) rfl hframes)
  | left thread keyEvents k hmade happ hframes hcarries hleft =>
    rcases sdlAppEvent_cases happ hkey with ⟨-, hquit⟩ | ⟨-, hstored⟩
    · rw [hquit]
      exact .quit _ made hlonger (.left thread keyEvents k hmade happ hframes hcarries hleft)
    · rw [hstored]
      exact .continuing _ (.left thread _ k (by simpa using hmade) rfl hframes hcarries hleft)

theorem tracks_next (h : Assembled instrs app) {status : Status Handler}
    (htracks : TracksMachine instrs app made status) {callback : Callback}
    (hkey : Representable callback) (hiterations : callback ≠ .iterate 0) :
    TracksMachine instrs app (made ++ [callback]) (status.next callback) := by
  have hlonger := List.prefix_append made [callback]
  cases htracks with
  | continuing process hbetween =>
    cases callback with
    | iterate iterations =>
      exact tracks_iterate h hbetween fun hzero => hiterations (congrArg Callback.iterate hzero)
    | event event => exact tracks_event hbetween hkey
  | quit process before hbefore hbetween =>
    exact .quit process before (hbefore.trans hlonger) hbetween
  | failed process thread keyEvents k hmade happ hframes hcarries hfault =>
    have hmade' := hmade.imp fun _ hmem => hlonger.subset hmem
    exact .failed process thread keyEvents k hmade' happ hframes hcarries hfault
  | running process thread keyEvents iterations hmade happ hframes hcarries =>
    exact .running process thread keyEvents iterations (hlonger.subset hmade) happ hframes hcarries

theorem tracks_after (h : Assembled instrs app) {status : Status Handler}
    (htracks : TracksMachine instrs app [] status) (callbacks : List Callback)
    (hkeys : ∀ callback ∈ callbacks, Representable callback)
    (hiterations : ∀ callback ∈ callbacks, callback ≠ .iterate 0) :
    TracksMachine instrs app callbacks (status.after callbacks) := by
  induction callbacks using List.reverseRecOn with
  | nil => exact htracks
  | append_singleton made callback ih =>
    obtain ⟨hkeysMade, hkey⟩ := List.forall_mem_append.mp hkeys
    obtain ⟨hiterationsMade, hiteration⟩ := List.forall_mem_append.mp hiterations
    rw [after_append]
    exact tracks_next h (ih hkeysMade hiterationsMade) (hkey _ (List.mem_singleton_self _))
      (hiteration _ (List.mem_singleton_self _))

end Step

/-- Every session of an application started on an assembled program tracks the control-flow
machine on the program that was written, over the data that the framebuffer leaves. -/
theorem started_program_tracked {Handler : Type} {host : Host}
    {std : StdSort SegmentHeader.less} {native : Endian} {args : List String} {app : App Handler}
    {instrs : List Instruction} {data : List Segment} (h : App.new host std native args = .ok app)
    (hwidth : app.renderer.framebufferWidth.toNat < 2 ^ 29)
    (hbase : ∀ base, host.allocate app.options.memorySize.toNat = some base → 0 < base)
    (hopen : host.openFile app.options.programPath = some (link (assemble instrs data)))
    (hprogram : Assemblable instrs data app.options.memorySize.toNat) (callbacks : List Callback)
    (hkeys : ∀ callback ∈ callbacks, Representable callback)
    (hiterations : ∀ callback ∈ callbacks, callback ≠ .iterate 0) :
    TracksMachine instrs app callbacks ((sdlAppInit host std native true args).after callbacks) ∧
    ∀ part ∈ data, ∀ k, k < part.size.toNat →
      app.emulator.memory.raw[part.start.toNat + k]? =
        if app.framebuffer.offset ≤ part.start.toNat + k ∧
            part.start.toNat + k < app.framebuffer.offset + 4 * app.framebuffer.count then some 0
        else some (part.bytes.getD k 0) := by
  obtain ⟨base, program, loaded, hoptions, hallocated, -, hprogramFile, hload, itemCount, rfl,
    hallocate, hspan, hemulator, hthread, -⟩ := appNew_ok h
  obtain ⟨⟨-, hwide⟩, -, hhigh⟩ := optionsParse_ok hoptions
  obtain rfl := Option.some.inj (hopen.symm.trans hprogramFile)
  have hoverlaid := overlaid_of_load hload hwide hhigh hallocate hspan hemulator
  obtain ⟨loaded', hload', hinstructions, hdata⟩ :=
    @loadElf_assembled Handler native instrs data _ std
      (Emulator.new base app.options.memorySize.toNat) base rfl (hbase base hallocated) hprogram
  obtain rfl := (Prod.mk.inj (hload.symm.trans hload')).2
  have hassembled : Assembled instrs app := {
    ready := ready_of_started h hwidth
    instructions := hoverlaid.instructions.trans hinstructions
    carries := run_shortened (@decodeInstructions_assembled native instrs data _ hprogram)
      hprogram.linkFree }
  constructor
  · rw [sdlAppInit_started h]
    have hstart : Between instrs app [] { app := some app } :=
      .waiting app.keyEvents nofun (by rw [withGuest, ← hthread]) rfl
    exact tracks_after hassembled (.continuing _ hstart) callbacks hkeys hiterations
  · intro part hmem k hk
    rw [hoverlaid.bytes, hdata part hmem k hk]

/-- The host of a program that jumps over its second instruction, in one KiB of memory. -/
def skipHost : Host where
  parseArgs _ := .ok { programPath := "skip", framebufferSize := [1, 1], memorySizeKiB := 1 }
  allocate _ := some 4098
  createsWindow := true
  createsRenderer := true
  createsTexture := true
  openFile _ := some (link (assemble skipProgram skipData))

theorem appNew_skip : ∃ app : App Unit, App.new skipHost insertionSort .little [] = .ok app ∧
    app.renderer.framebufferWidth.toNat = 1 := by
  have hwidth : (match App.new skipHost insertionSort .little [] with
      | .ok (app : App Unit) => app.renderer.framebufferWidth.toNat
      | .error _ => 0) = 1 := by decide +kernel
  cases h : (App.new skipHost insertionSort .little [] : Except Abort (App Unit)) with
  | ok app =>
    rw [h] at hwidth
    exact ⟨app, rfl, hwidth⟩
  | error e =>
    rw [h] at hwidth
    cases hwidth

theorem started_program_tracked_skip : ∃ app : App Unit,
    TracksMachine skipProgram app [.event (.keyDown 97), .iterate 3, .iterate 1]
      ((sdlAppInit skipHost insertionSort .little true []).after
        [.event (.keyDown 97), .iterate 3, .iterate 1]) ∧
    ∀ part ∈ skipData, ∀ k, k < part.size.toNat →
      app.emulator.memory.raw[part.start.toNat + k]? =
        if app.framebuffer.offset ≤ part.start.toNat + k ∧
            part.start.toNat + k < app.framebuffer.offset + 4 * app.framebuffer.count then some 0
        else some (part.bytes.getD k 0) := by
  obtain ⟨app, happ, hwidth⟩ := appNew_skip
  obtain ⟨-, -, -, hoptions, -⟩ := appNew_ok happ
  have hsize : app.options.memorySize.toNat = 1024 := by
    rw [← Except.ok.inj hoptions]
    rfl
  refine ⟨app, started_program_tracked happ (by omega) ?_ rfl ?_ _ ?_ ?_⟩
  · intro base hallocate
    rw [← Option.some.inj hallocate]
    decide
  · rw [hsize]
    exact assemblable_skip (by decide) (by decide)
  · simp [Representable]
  · simp

end RiscvEmulator.Guarantees
