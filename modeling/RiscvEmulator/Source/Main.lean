import RiscvEmulator.Source.App

/-!
# The callbacks of the program

Embeds src/main.cpp. `Process` is what the callbacks share and what they put out: the
pointer `app`, the texts they write to `std::cerr` and the frames they present. SDL calls
`SDL_AppInit` once, then the iteration and event callbacks in any order as long as each of
them asks to continue. `SDL_AppQuit`, which SDL calls last, only releases `app`.
-/
namespace RiscvEmulator.Source

inductive AppResult where
  | Continue | Success | Failure
  deriving DecidableEq, Repr

/-- The events `SDL_AppEvent` tells apart. -/
inductive SdlEvent where
  | quit
  | keyDown (key : BitVec 32)
  | keyUp (key : BitVec 32)
  | other
  deriving DecidableEq, Repr

structure Process (Handler : Type) where
  app : Option (App Handler) := none
  errors : List String := []
  frames : List (List (List Byte)) := []

/-- A call SDL makes while the program runs; `iterations` is how many iterations of `run`
are looked at. -/
inductive Callback where
  | iterate (iterations : Nat)
  | event (event : SdlEvent)

/-- How the program stands after some callbacks. -/
inductive Status (Handler : Type) where
  | continuing (process : Process Handler)
  | ended (result : AppResult) (process : Process Handler)
  | running (process : Process Handler)
  | aborted (e : Abort)

section Callbacks
variable {Handler : Type}

/-- `catch (std::exception const& e)` of a callback: reports the exception and gives up. -/
def catchException (process : Process Handler) (intro : String) (object : Thrown) :
    Status Handler :=
  match object with
  | .value exception =>
    .ended .Failure { process with errors := process.errors ++ [intro ++ exception.what] }
  | .pointer _ => .aborted (.thrown object)

def sdlAppInit (host : Host) (std : StdSort SegmentHeader.less) (native : Endian)
    (initsVideo : Bool) (args : List String) : Status Handler :=
  if !initsVideo then .ended .Failure {}
  else
    match App.new host std native args with
    | .ok app => .continuing { app := some app }
    | .error (.thrown object) => catchException {} "Error on startup: " object
    | .error .undefinedBehaviour => .aborted .undefinedBehaviour

def sdlAppIterate (process : Process Handler) (iterations : Nat) : Status Handler :=
  match process.app with
  | none => .aborted .undefinedBehaviour
  | some app =>
    match app.tick iterations with
    | .presented rows app =>
      .continuing { process with app := some app, frames := process.frames ++ [rows] }
    | .threw object app =>
      catchException { process with app := some app } "Error during emulation: " object
    | .undefinedBehaviour => .aborted .undefinedBehaviour
    | .running app => .running { process with app := some app }

/-- `app->handleKey(...)` of the two key events. -/
def keyEvent (process : Process Handler) (key : BitVec 32) (isKeyDown : Bool) : Status Handler :=
  match process.app with
  | none => .aborted .undefinedBehaviour
  | some app =>
    match app.handleKey key isKeyDown with
    | .ok app => .continuing { process with app := some app }
    | .error e => .aborted e

def sdlAppEvent (process : Process Handler) (event : SdlEvent) : Status Handler :=
  match event with
  | .quit => .ended .Success process
  | .keyDown key => keyEvent process key true
  | .keyUp key => keyEvent process key false
  | .other => .continuing process

/-- One callback, if the program has not ended before. -/
def Status.next (status : Status Handler) (callback : Callback) : Status Handler :=
  match status with
  | .continuing process =>
    match callback with
    | .iterate iterations => sdlAppIterate process iterations
    | .event event => sdlAppEvent process event
  | _ => status

def Status.after (status : Status Handler) (callbacks : List Callback) : Status Handler :=
  callbacks.foldl Status.next status

end Callbacks
end RiscvEmulator.Source
