import RiscvEmulator.Source.Emulator

/-!
# The registry of custom syscall handlers

Sequences of registrations and removals from a fresh emulator. The handler invoked for
a number is always the one of its last successful registration. The guard of
`registerCustomSyscallHandler` is the wrong way round: it admits the reserved numbers
and rejects the others, so `RegistrySound` holds of a sequence only if the sequence
registers nothing.
-/
namespace RiscvEmulator.Guarantees
open Source Emulator

variable {Handler : Type}

inductive RegistryCall (Handler : Type) where
  | register (syscallNumber : BitVec 64) (handler : Handler)
  | unregister (syscallNumber : BitVec 64)

/-- The emulator after a call, and whether the call returned. A call that throws leaves
the emulator as it was. -/
def RegistryCall.perform (emulator : Emulator Handler) :
    RegistryCall Handler → Emulator Handler × Bool
  | .register n handler =>
    match emulator.registerCustomSyscallHandler n handler with
    | .ok emulator => (emulator, true)
    | .error _ => (emulator, false)
  | .unregister n => (emulator.unregisterCustomSyscallHandler n, true)

/-- The emulator after a sequence of calls. -/
def replay (emulator : Emulator Handler) (calls : List (RegistryCall Handler)) :
    Emulator Handler := calls.foldl (fun emulator call => (call.perform emulator).1) emulator

/-- The calls of a sequence, each with whether it returned. -/
def outcomes (emulator : Emulator Handler) :
    List (RegistryCall Handler) → List (RegistryCall Handler × Bool)
  | [] => []
  | call :: calls => (call, (call.perform emulator).2) :: outcomes (call.perform emulator).1 calls

/-- The handler `n` is left with by one call. -/
def handlerAfter (n : BitVec 64) (handler : Option Handler) :
    RegistryCall Handler × Bool → Option Handler
  | (.register m new, true) => if m = n then some new else handler
  | (.register _ _, false) => handler
  | (.unregister m, _) => if m = n then none else handler

/-- The handler of the last successful registration of `n` that no removal of `n` follows. -/
def lastRegistered (n : BitVec 64) (history : List (RegistryCall Handler × Bool)) :
    Option Handler := history.foldl (handlerAfter n) none

/-- What the registry promises of a sequence of calls from a fresh emulator. -/
structure RegistrySound (fresh : Emulator Handler) (calls : List (RegistryCall Handler)) :
    Prop where
  /-- A registration succeeds when its number is not reserved and throws otherwise. -/
  guarded : ∀ before n handler after, calls = before ++ .register n handler :: after →
    ((∃ emulator, (replay fresh before).registerCustomSyscallHandler n handler = .ok emulator) ↔
      n > BuiltinSyscall.Max)
  /-- No reserved number ever has a handler. -/
  reserved : ∀ before after n handler, calls = before ++ after →
    (replay fresh before).customSyscallHandlers n = some handler → n > BuiltinSyscall.Max
  /-- A syscall invokes exactly the handler that was last registered. -/
  invoked : ∀ invoke thread n,
    performCustomSyscall invoke (replay fresh calls) thread n =
      match lastRegistered n (outcomes fresh calls) with
      | some handler =>
        let (result, thread, emulator) := invoke handler thread (replay fresh calls)
        (result.map fun _ => (), thread, emulator)
      | none => (.ok (), thread, replay fresh calls)

section Calls
variable (emulator : Emulator Handler) (n : BitVec 64) (handler : Handler)

/-- The guard as the source has it. -/
theorem registerCustomSyscallHandler_ok_iff :
    (∃ after, emulator.registerCustomSyscallHandler n handler = .ok after) ↔
      ¬n > BuiltinSyscall.Max := by
  unfold registerCustomSyscallHandler
  split
  · next hguard =>
    constructor
    · rintro ⟨after, h⟩
      cases h
    · exact fun h => absurd hguard h
  · next hguard => exact ⟨fun _ => hguard, fun _ => ⟨_, rfl⟩⟩

theorem perform_register_rejected (hguard : n > BuiltinSyscall.Max) :
    (RegistryCall.register n handler).perform emulator = (emulator, false) := by
  simp only [RegistryCall.perform, registerCustomSyscallHandler, if_pos hguard]

theorem perform_register_accepted (hguard : ¬n > BuiltinSyscall.Max) :
    (RegistryCall.register n handler).perform emulator =
      ({ emulator with
        customSyscallHandlers :=
          Function.update emulator.customSyscallHandlers n (some handler) }, true) := by
  simp only [RegistryCall.perform, registerCustomSyscallHandler, if_neg hguard]

/-- One call changes the handler of each number as `handlerAfter` says. -/
theorem perform_handlers (call : RegistryCall Handler) :
    (call.perform emulator).1.customSyscallHandlers n =
      handlerAfter n (emulator.customSyscallHandlers n) (call, (call.perform emulator).2) := by
  cases call with
  | register m new =>
    by_cases hguard : m > BuiltinSyscall.Max
    · rw [perform_register_rejected emulator m new hguard]
      rfl
    · rw [perform_register_accepted emulator m new hguard]
      by_cases hm : m = n
      · subst hm
        exact (Function.update_self ..).trans (if_pos rfl).symm
      · exact (Function.update_of_ne (Ne.symm hm) ..).trans (if_neg hm).symm
  | unregister m =>
    by_cases hm : m = n
    · subst hm
      exact (Function.update_self ..).trans (if_pos rfl).symm
    · exact (Function.update_of_ne (Ne.symm hm) ..).trans (if_neg hm).symm

/-- One call gives no handler to a number past the reserved ones. -/
theorem perform_handlers_reserved (call : RegistryCall Handler)
    (hbefore : ∀ h, emulator.customSyscallHandlers n = some h → n ≤ BuiltinSyscall.Max)
    (hafter : (call.perform emulator).1.customSyscallHandlers n = some handler) :
    n ≤ BuiltinSyscall.Max := by
  cases call with
  | register m new =>
    by_cases hguard : m > BuiltinSyscall.Max
    · rw [perform_register_rejected emulator m new hguard] at hafter
      exact hbefore handler hafter
    · rw [perform_register_accepted emulator m new hguard] at hafter
      by_cases hm : m = n
      · subst hm
        exact BitVec.not_lt.mp hguard
      · exact hbefore handler ((Function.update_of_ne (Ne.symm hm) ..).symm.trans hafter)
  | unregister m =>
    by_cases hm : m = n
    · subst hm
      cases (Function.update_self ..).symm.trans hafter
    · exact hbefore handler ((Function.update_of_ne (Ne.symm hm) ..).symm.trans hafter)

end Calls

/-- The map after a sequence of calls, from any emulator. -/
theorem replay_handlers (emulator : Emulator Handler) (calls : List (RegistryCall Handler))
    (n : BitVec 64) :
    (replay emulator calls).customSyscallHandlers n =
      (outcomes emulator calls).foldl (handlerAfter n) (emulator.customSyscallHandlers n) := by
  induction calls generalizing emulator with
  | nil => rfl
  | cons call calls ih =>
    have hrest := ih (call.perform emulator).1
    rw [perform_handlers] at hrest
    exact hrest

/-- From a fresh emulator every syscall invokes the handler last registered for it. -/
theorem performCustomSyscall_lastRegistered (fresh : Emulator Handler)
    (hfresh : fresh.customSyscallHandlers = fun _ => none) (calls : List (RegistryCall Handler))
    (invoke : Handler → Thread → Emulator Handler →
      Except Abort CustomSyscallStatus × Thread × Emulator Handler)
    (thread : Thread) (n : BitVec 64) :
    performCustomSyscall invoke (replay fresh calls) thread n =
      match lastRegistered n (outcomes fresh calls) with
      | some handler =>
        let (result, thread, emulator) := invoke handler thread (replay fresh calls)
        (result.map fun _ => (), thread, emulator)
      | none => (.ok (), thread, replay fresh calls) := by
  have hmap := replay_handlers fresh calls n
  rw [hfresh] at hmap
  unfold performCustomSyscall
  rw [hmap]
  rfl

/-- A sequence that registers nothing leaves the map empty. -/
theorem replay_handlers_of_no_register (fresh : Emulator Handler)
    (hfresh : fresh.customSyscallHandlers = fun _ => none) (calls : List (RegistryCall Handler))
    (hcalls : ∀ n handler, .register n handler ∉ calls) (n : BitVec 64) :
    (replay fresh calls).customSyscallHandlers n = none := by
  induction calls generalizing fresh with
  | nil =>
    exact congrFun hfresh n
  | cons call calls ih =>
    cases call with
    | register m new => exact absurd List.mem_cons_self (hcalls m new)
    | unregister m =>
      refine ih _ ?_ (fun m new hmem => hcalls m new (List.mem_cons_of_mem _ hmem))
      funext k
      have hkeep : (RegistryCall.perform fresh (.unregister m)).1.customSyscallHandlers k =
          if m = k then none else fresh.customSyscallHandlers k := perform_handlers fresh k _
      rw [hkeep, hfresh, ite_self]

/-- The registry keeps its promises over a sequence of calls exactly when no call of the
sequence is a registration. -/
theorem registrySound_iff (base memorySizeBytes : Nat) (calls : List (RegistryCall Handler)) :
    RegistrySound (Emulator.new base memorySizeBytes) calls ↔
      ∀ n handler, .register n handler ∉ calls := by
  constructor
  · intro hsound n handler hmem
    obtain ⟨before, after, hsplit⟩ := List.append_of_mem hmem
    have hguard := hsound.guarded before n handler after hsplit
    rw [registerCustomSyscallHandler_ok_iff] at hguard
    by_cases hn : n > BuiltinSyscall.Max
    · exact hguard.mpr hn hn
    · exact hn (hguard.mp hn)
  · intro hcalls
    refine ⟨?_, ?_, fun invoke thread n => performCustomSyscall_lastRegistered _ rfl calls ..⟩
    · intro before n handler after hsplit
      refine absurd ?_ (hcalls n handler)
      rw [hsplit]
      exact List.mem_append_right _ List.mem_cons_self
    · intro before after n handler hsplit hmap
      have hnone := replay_handlers_of_no_register (Emulator.new base memorySizeBytes) rfl before
        (fun m new hmem => hcalls m new (hsplit ▸ List.mem_append_left _ hmem)) n
      rw [hnone] at hmap
      cases hmap

/-- Registering the first number past the reserved ones throws. -/
theorem not_registrySound_custom :
    ¬∀ (base memorySizeBytes : Nat) (calls : List (RegistryCall Unit)),
      RegistrySound (Emulator.new base memorySizeBytes) calls := by
  intro h
  have hguard := (h 0 0 [.register 128 ()]).guarded [] 128 () [] rfl
  obtain ⟨after, hok⟩ := hguard.mpr (by decide)
  cases hok

/-- What the guard admits: every number with a handler is a reserved one. -/
theorem replay_handlers_reserved (emulator : Emulator Handler)
    (calls : List (RegistryCall Handler)) (n : BitVec 64) (handler : Handler)
    (hstart : ∀ h, emulator.customSyscallHandlers n = some h → n ≤ BuiltinSyscall.Max)
    (hmap : (replay emulator calls).customSyscallHandlers n = some handler) :
    n ≤ BuiltinSyscall.Max := by
  induction calls generalizing emulator with
  | nil => exact hstart handler hmap
  | cons call calls ih =>
    exact ih (call.perform emulator).1
      (fun h => perform_handlers_reserved emulator n h call hstart) hmap

end RiscvEmulator.Guarantees
