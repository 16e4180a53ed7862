import RiscvEmulator.Guarantees.SyscallRegistry

/-!
# Dispatching custom syscalls

Registrations, removals and syscalls in any order, where a handler may itself register and
remove handlers while it runs. Whatever the order, the map is one that a plain sequence of
registrations and removals leaves, so a number past the reserved ones never gets a handler:
its syscalls do nothing and its registrations throw.
-/
namespace RiscvEmulator.Guarantees
open Source Emulator Library.ExceptList

variable {Handler : Type}

inductive SyscallEvent (Handler : Type) where
  | call (request : RegistryCall Handler)
  | syscall (thread : Thread) (syscallNumber : BitVec 64)

variable (invoke : Handler → Thread → Emulator Handler →
  Except Abort CustomSyscallStatus × Thread × Emulator Handler)

/-- The emulator after an event that returned or threw. There is none after undefined
behaviour. -/
def SyscallEvent.perform (emulator : Emulator Handler) :
    SyscallEvent Handler → Option (Emulator Handler)
  | .call request => some (request.perform emulator).1
  | .syscall thread n =>
    match performCustomSyscall invoke emulator thread n with
    | (.error .undefinedBehaviour, _, _) => none
    | (_, _, emulator) => some emulator

/-- The emulator after a sequence of events; what one of them throws is caught by its caller. -/
def serve (emulator : Emulator Handler) (events : List (SyscallEvent Handler)) :
    Option (Emulator Handler) := events.foldlM (SyscallEvent.perform invoke) emulator

/-- A handler changes the map through the functions of the registry, which are the only
ones that have access to it, whether it then returns or throws. -/
def ThroughRegistry : Prop :=
  ∀ handler thread emulator result thread' emulator',
    invoke handler thread emulator = (result, thread', emulator') →
      result ≠ .error .undefinedBehaviour →
        ∃ calls, emulator'.customSyscallHandlers = (replay emulator calls).customSyscallHandlers

section Replay
variable {emulator emulator' : Emulator Handler}

theorem replay_append (emulator : Emulator Handler) (before after : List (RegistryCall Handler)) :
    replay emulator (before ++ after) = replay (replay emulator before) after :=
  List.foldl_append

/-- What a call does to the map depends on the map alone. -/
theorem perform_handlers_congr (call : RegistryCall Handler)
    (h : emulator'.customSyscallHandlers = emulator.customSyscallHandlers) :
    (call.perform emulator').1.customSyscallHandlers =
      (call.perform emulator).1.customSyscallHandlers := by
  cases call with
  | register n handler =>
    by_cases hguard : n > BuiltinSyscall.Max
    · rw [perform_register_rejected emulator n handler hguard,
        perform_register_rejected emulator' n handler hguard]
      exact h
    · rw [perform_register_accepted emulator n handler hguard,
        perform_register_accepted emulator' n handler hguard]
      exact congrArg (fun handlers => Function.update handlers n (some handler)) h
  | unregister n => exact congrArg (fun handlers => Function.update handlers n none) h

theorem replay_handlers_congr (calls : List (RegistryCall Handler))
    (h : emulator'.customSyscallHandlers = emulator.customSyscallHandlers) :
    (replay emulator' calls).customSyscallHandlers =
      (replay emulator calls).customSyscallHandlers := by
  induction calls generalizing emulator emulator' with
  | nil => exact h
  | cons call calls ih => exact ih (perform_handlers_congr call h)

end Replay

section Serve
variable {invoke} {emulator served : Emulator Handler}

/-- One event changes the map as some calls do. -/
theorem perform_replayed (hinvoke : ThroughRegistry invoke) {event : SyscallEvent Handler}
    (h : event.perform invoke emulator = some served) :
    ∃ calls, served.customSyscallHandlers = (replay emulator calls).customSyscallHandlers := by
  cases event with
  | call request =>
    obtain rfl := Option.some.inj h
    exact ⟨[request], rfl⟩
  | syscall thread n =>
    cases hmap : emulator.customSyscallHandlers n with
    | none =>
      simp only [SyscallEvent.perform, performCustomSyscall, hmap] at h
      obtain rfl := Option.some.inj h
      exact ⟨[], rfl⟩
    | some handler =>
      cases hcall : invoke handler thread emulator with
      | mk result left =>
        simp only [SyscallEvent.perform, performCustomSyscall, hmap, hcall] at h
        cases result with
        | ok status =>
          obtain rfl := Option.some.inj h
          exact hinvoke handler thread emulator _ _ _ hcall nofun
        | error e =>
          cases e with
          | thrown object =>
            obtain rfl := Option.some.inj h
            exact hinvoke handler thread emulator _ _ _ hcall nofun
          | undefinedBehaviour => cases h

/-- So do any events, one after the other. -/
theorem serve_replayed (hinvoke : ThroughRegistry invoke) {events : List (SyscallEvent Handler)}
    (h : serve invoke emulator events = some served) :
    ∃ calls, served.customSyscallHandlers = (replay emulator calls).customSyscallHandlers := by
  induction events generalizing emulator with
  | nil =>
    obtain rfl := Option.some.inj h
    exact ⟨[], rfl⟩
  | cons event events ih =>
    unfold serve at h
    rw [List.foldlM_cons] at h
    obtain ⟨middle, hevent, hrest⟩ := Option.bind_eq_some_iff.mp h
    obtain ⟨before, hbefore⟩ := perform_replayed hinvoke hevent
    obtain ⟨after, hafter⟩ := ih hrest
    refine ⟨before ++ after, ?_⟩
    rw [hafter, replay_append]
    exact replay_handlers_congr after hbefore

end Serve

/-- In every emulator that any events lead to, the handlers are those some registrations and
removals leave, and a number that the documentation asks for has none: its syscalls do
nothing, and every registration of it throws. -/
theorem custom_syscalls_unserved (hinvoke : ThroughRegistry invoke) (base memorySizeBytes : Nat)
    (events : List (SyscallEvent Handler)) (served : Emulator Handler)
    (hserve : serve invoke (Emulator.new base memorySizeBytes) events = some served) :
    (∃ calls, served.customSyscallHandlers =
      (replay (Emulator.new base memorySizeBytes : Emulator Handler) calls).customSyscallHandlers) ∧
    ∀ n > BuiltinSyscall.Max,
      (∀ thread, performCustomSyscall invoke served thread n = (.ok (), thread, served)) ∧
      ∀ handler, ¬∃ after, served.registerCustomSyscallHandler n handler = .ok after := by
  obtain ⟨calls, hcalls⟩ := serve_replayed hinvoke hserve
  refine ⟨⟨calls, hcalls⟩, fun n hn => ⟨fun thread => ?_, fun handler => ?_⟩⟩
  · have hnone : served.customSyscallHandlers n = none := by
      cases hmap : served.customSyscallHandlers n with
      | none => rfl
      | some handler =>
        rw [hcalls] at hmap
        have hreserved := replay_handlers_reserved (Emulator.new base memorySizeBytes) calls n
          handler (fun _ hfresh => nomatch hfresh) hmap
        exact absurd hn (BitVec.not_lt.mpr hreserved)
    unfold performCustomSyscall
    rw [hnone]
  · rw [registerCustomSyscallHandler_ok_iff]
    exact not_not.mpr hn

/-- A handler that registers the next number, or throws what the registration throws. -/
def registerNext (n : BitVec 64) (thread : Thread) (emulator : Emulator (BitVec 64)) :
    Except Abort CustomSyscallStatus × Thread × Emulator (BitVec 64) :=
  match emulator.registerCustomSyscallHandler (n + 1) (n + 1) with
  | .ok emulator => (.ok .Continue, thread, emulator)
  | .error object => (.error (.thrown object), thread, emulator)

theorem throughRegistry_registerNext : ThroughRegistry registerNext := by
  intro n thread emulator result thread' emulator' h _
  refine ⟨[.register (n + 1) (n + 1)], ?_⟩
  unfold registerNext at h
  unfold replay
  rw [List.foldl_cons, List.foldl_nil, RegistryCall.perform]
  split at h
  all_goals
    next hregister =>
    obtain ⟨-, hleft⟩ := Prod.mk.inj h
    rw [hregister, ← (Prod.mk.inj hleft).2]

/-- From 126 on the handlers register one another; 128 is one too many, and 127 throws. -/
def registeredOn : List (SyscallEvent (BitVec 64)) :=
  [.call (.register 126 126), .syscall {} 126, .syscall {} 127, .syscall {} 128]

def afterRegisteredOn : Emulator (BitVec 64) :=
  replay (Emulator.new 4096 8) [.register 126 126, .register 127 127, .register 128 128]

theorem custom_syscalls_unserved_registeredOn :
    (∃ calls, afterRegisteredOn.customSyscallHandlers =
      (replay (Emulator.new 4096 8 : Emulator (BitVec 64)) calls).customSyscallHandlers) ∧
    ∀ n > BuiltinSyscall.Max,
      (∀ thread, performCustomSyscall registerNext afterRegisteredOn thread n =
        (.ok (), thread, afterRegisteredOn)) ∧
      ∀ handler, ¬∃ after, afterRegisteredOn.registerCustomSyscallHandler n handler = .ok after :=
  custom_syscalls_unserved registerNext throughRegistry_registerNext 4096 8 registeredOn
    afterRegisteredOn rfl

end RiscvEmulator.Guarantees
