import Chip8.Config.Yaml
import Chip8.Recorder
import Chip8.Session.Run
import Chip8.Video
import Chip8.Window

/-!
# The command line

Run a program, either without a window for a number of frames, and then save a video of them if one
is asked for, or in a window until it is closed.  A fault of the program is logged and makes the exit
code `1`; anything else that goes wrong is an error of the command.

A setting is looked at where it is needed, so a missing or useless one is an error only then, and what
the command did before stays done.  The files and the window's events are given, and the clock is the
session's own.
-/

namespace Chip8

namespace CommandLine

inductive Error where
  | config (e : Config.Error)
  | missing
  | misuse (e : Misuse)
  | seed (e : RandomKey.Error)
  | rates (e : Rates.Error)
  | window (e : Window.Error)
  | video (e : Video.Error)
  | failure (f : Failure)

/-- The wording of an error, for those that have one. -/
def Error.message? : Error → Option String
  | config _ => none
  | missing => none
  | misuse e => some e.message
  | seed e => some e.message
  | rates e => some e.message
  | window e => some e.message
  | video e => some e.message
  | failure f => some f.message

/-- What can be seen of a command besides its result. -/
structure Record where
  /-- Batches of events that no poll has taken. -/
  eventsLeft : Nat
  printed : List String := []
  sleeps : Nat := 0
  clock : Float := 0
  encoder : Option Video.Encoder := none

/-- A part of the command. -/
abbrev Command (α : Type) := ExceptT Error (StateM Record) α

structure Outcome where
  result : Except Error Nat
  record : Record

/-- What a part of the library gives; its errors are errors of the command. -/
def attempt {ε α : Type} (wrap : ε → Error) (r : Except ε α) : Command α :=
  match r with
  | .ok a => return a
  | .error e => throw (wrap e)

/-- A setting that is needed now. -/
def need (v : Value) : Command Value :=
  if Config.isMissing v then throw .missing else return v

def say (lines : List String) : Command Unit :=
  modify fun r => { r with printed := r.printed ++ lines }

def printedTexts (trace : Array Event) : List String :=
  trace.toList.filterMap fun
    | .printed text => some text
    | _ => none

def countSleeps (trace : Array Event) : Nat :=
  trace.toList.countP fun
    | .slept _ => true
    | _ => false

/-- Do something in a session, which starts without a trace and ends without one. -/
def act {σ α : Type} (a : Act σ α) (s : Session σ) : Command (Except Failure α × Session σ) := do
  let (result, s) := a.run s
  modify fun r => { r with
    printed := r.printed ++ printedTexts s.trace
    sleeps := r.sleeps + countSleeps s.trace
    clock := s.clock }
  return (result, { s with trace := #[] })

/-! ### Before the run -/

/-- Open the log, and show the configuration in it. -/
def openLog (c : Config) (terminal : Bool) : Command Logger := do
  let level ← need c.logLevel
  let threshold ← attempt .misuse (Logger.thresholdOf level)
  let logger := Logger.create Logger.machineName threshold true true terminal 0
  say (logger.lines 0 [⟨"DEBUG", c.yaml⟩])
  return logger

/-- Make the machine. -/
def makeMachine (c : Config) : Command Machine := do
  let m := c.machine
  let _ ← need c.video
  let _ ← need m.legacyMode
  let _ ← need m.instructionFrequency
  let _ ← need m.fps
  let rng ← attempt .seed (RandomKey.ofValue (← need c.seed))
  let _ ← need m.logInterval
  attempt .rates (Machine.create m rng)

/-- Whether to run without a window. -/
def isHeadless (c : Config) : Command Bool := do
  attempt .misuse (Value.compare .greater (← need c.headlessFrames) (.int 0))

/-! ### The run -/

/-- A fault of the program ends the command with exit code `1`. -/
def exitCode : Except Failure Unit → Except Error Nat
  | .ok _ => .ok 0
  | .error (.fault _) => .ok 1
  | .error f => .error (.failure f)

def withDevices {σ τ : Type} (s : Session σ) (devices : τ) : Session τ :=
  { machine := s.machine, logger := s.logger, devices, clock := s.clock }

/-- Save a video of the displays. -/
def saveVideo (c : Config) (displays : List Display) : Command Unit := do
  let filename ← need c.video
  let rate ← need c.machine.fps
  let scale ← need (← attempt .misuse c.scale)
  let scheme ← need (← attempt .misuse c.colorScheme)
  let (encoder, saved) :=
    Video.save (Video.ofDisplays displays) filename rate scale scheme.render true
  modify fun r => { r with encoder }
  say (← attempt .video saved)

/-- Run `n` frames without a window, unpaced, and save the video. -/
def runHeadless (c : Config) (n : Nat) (s : Session Unit) : Command Nat := do
  let recorder : Recorder := { keepFrames := c.video.truthy }
  let (result, t) ← act (Session.run Peripherals.none.recording (n + 1) (some (n : Int)) false)
    (withDevices s (recorder, ()))
  if result.isOk && c.video.truthy then saveVideo c t.devices.1.frames.toList
  attempt id (exitCode result)

/-- Run in a window.  Each poll takes a batch of events, and the poll after the last batch closes the
window, so the run has at most one frame more than there are batches. -/
def runInteractive (c : Config) (batches : List (List HostEvent)) (s : Session Unit) :
    Command Nat := do
  let scale ← need (← attempt .misuse c.scale)
  let scheme ← need (← attempt .misuse c.colorScheme)
  let title := "chix8 - " ++ c.rom.render
  let (window, _) ← attempt .window (Window.create title scale scheme.render true true)
  let scripted : Window.Scripted := { window, pending := batches }
  let (result, t) ← act (Session.run Window.Scripted.devices (batches.length + 2) none true)
    (withDevices s scripted)
  modify fun r => { r with eventsLeft := t.devices.pending.length }
  attempt id (exitCode result)

/-- The command with the given overrides.  `read` gives the contents of the file that a value
names. -/
def command (read : Value → Except File.Error (List UInt8)) (terminal : Bool) (words : List String)
    (batches : List (List HostEvent)) : Command Nat := do
  let c ← attempt .config (Config.ofWords words)
  let logger ← openLog c terminal
  let machine ← makeMachine c
  let rom ← need c.rom
  let start : Session Unit := { machine, logger, devices := () }
  match ← act (Session.loadFile rom.render (read rom)) start with
  | (.error f, _) => throw (.failure f)
  | (.ok _, s) =>
    if ← isHeadless c then runHeadless c (c.headlessFrames.int?.getD 0).toNat s
    else runInteractive c batches s

def run (read : Value → Except File.Error (List UInt8)) (terminal : Bool) (words : List String)
    (batches : List (List HostEvent)) : Outcome :=
  let (result, record) := (command read terminal words batches).run { eventsLeft := batches.length }
  { result, record }

end CommandLine

end Chip8
