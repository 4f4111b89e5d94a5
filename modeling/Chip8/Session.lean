import Chip8.File
import Chip8.Machine
import Chip8.Peripherals

/-!
# Sessions

A machine among its devices, a logger, and a clock in seconds.  What happens in a session is kept as
a trace of events, oldest first.  An action of a session may fail; what it did before it failed stays
done.

Nobody touches the keys while a wait goes on, except by the script: each wait takes its next item, and
looks at the keys when the changes in it have been made.
-/

namespace Chip8

inductive Event where
  /-- The devices were called. -/
  | polled
  | sounded
  | rendered (display : Display)
  /-- The timers went down. -/
  | ticked
  /-- The live keypad was copied into the state. -/
  | synced (keys : Keys)
  /-- A word was executed, or a key wait began. -/
  | executed (word : UInt16)
  | faulted (f : Fault)
  /-- A wait for a key. -/
  | awaited (timeout : Float)
  | slept (seconds : Float)
  | printed (text : String)
  /-- A device looked at the running flag. -/
  | observed (running : Bool)
  /-- A run was let in. -/
  | began
  /-- A run that was let in came to its end, in whatever way. -/
  | ended
  /-- The machine was told to stop. -/
  | stopped
  /-- The machine was put back to its beginning. -/
  | wasReset

/-- Why an action did not come to its end. -/
inductive Failure where
  | fault (f : Fault)
  | keypad (e : Keypad.Error)
  | alreadyRunning
  | resetWhileRunning
  | file (e : File.Error)
  /-- A setting that is of no use where it is needed. -/
  | misuse (e : Misuse)
  /-- A rate that is too large for a time. -/
  | overflow (e : Number.Overflow)
  /-- The frames that were allowed are used up and the run was still going on. -/
  | unfinished

namespace Failure

def message : Failure → String
  | fault f => f.message
  | keypad e => e.message
  | alreadyRunning => "Machine is already running"
  | resetWhileRunning => "Cannot reset a running machine"
  | file e => e.message
  | misuse e => e.message
  | overflow e => e.message
  | unfinished => "The run did not end within the frames allowed"

end Failure

structure Session (σ : Type) where
  machine : Machine
  logger : Logger
  devices : σ
  clock : Float := 0
  /-- What the host does to the keys in the waits to come. -/
  script : List (List Keypad.Change) := []
  trace : Array Event := #[]

/-- An action in a session. -/
abbrev Act (σ : Type) (α : Type := Unit) := ExceptT Failure (StateM (Session σ)) α

namespace Session

variable {σ : Type}

def record (e : Event) : Act σ :=
  modify fun s => { s with trace := s.trace.push e }

def onMachine (f : Machine → Machine) : Act σ :=
  modify fun s => { s with machine := f s.machine }

/-- Print the entries that reach the logger's threshold. -/
def print (entries : List Entry) : Act σ :=
  modify fun s =>
    { s with trace := s.trace ++ ((s.logger.lines s.clock entries).map Event.printed).toArray }

def advance (seconds : Float) : Act σ :=
  modify fun s => { s with clock := s.clock + seconds }

/-- Sleep until a moment, if it is still to come. -/
def sleepUntil (moment : Float) : Act σ := do
  let remaining := moment - (← get).clock
  if 0 < remaining then
    record (.slept remaining)
    advance remaining

/-- Copy the live keypad into the state. -/
def syncKeypad : Act σ := do
  record (.synced (← get).machine.keypad.keys)
  onMachine Machine.syncKeypad

def onKeypad (f : Keypad → Except Keypad.Error Keypad) : Act σ := do
  match f (← get).machine.keypad with
  | .ok keypad => onMachine fun m => { m with keypad }
  | .error e => throw (.keypad e)

/-- Make changes of the keys one after the other, until one is refused. -/
def changeKeys : List Keypad.Change → Act σ
  | [] => pure ()
  | change :: changes => do
    onKeypad fun p => p.change change
    changeKeys changes

/-- Do what the script has next. -/
def followScript : Act σ := do
  match (← get).script with
  | [] => pure ()
  | changes :: rest =>
    modify fun s => { s with script := rest }
    changeKeys changes

/-- Wait for a key to be down.  Only a wait that nothing ends takes its time. -/
def waitForPress (timeout : Float) : Act σ Bool := do
  record (.awaited timeout)
  followScript
  let keypad := (← get).machine.keypad
  onMachine fun m => { m with keypad := keypad.afterWait }
  match keypad.wake with
  | .key => return true
  | .interrupt => return false
  | .timeout =>
    advance timeout
    return false

/-! ### Loading and resetting -/

def load (program : List UInt8) : Act σ := do
  match (← get).machine.load program with
  | .ok machine => modify fun s => { s with machine }
  | .error cause => throw (.fault { cause })

/-- Load a file, of which the contents are given if it can be read. -/
def loadFile (name : String) (contents : Except File.Error (List UInt8)) : Act σ := do
  match contents with
  | .error e => throw (.file e)
  | .ok program =>
    load program
    print [Report.info ("Loaded " ++ name ++ " (" ++ Numeral.decimal program.length ++ " bytes)")]

def reset : Act σ := do
  let m := (← get).machine
  if m.running then throw .resetWhileRunning
  match m.reset with
  | .ok machine =>
    modify fun s => { s with machine }
    record .wasReset
  | .error cause => throw (.fault { cause })

def stop : Act σ := do
  onMachine Machine.stop
  record .stopped

/-- One instruction; false for a key wait without a key.  A fault ends the run and is logged with
the registers as the last good instruction left them. -/
def step : Act σ Bool := do
  let m := (← get).machine
  match m.step with
  | .ok (machine, word) =>
    record (.executed word)
    modify fun s => { s with machine }
    return !machine.waiting
  | .error f =>
    record (.faulted f)
    onMachine fun m => { m with running := false }
    print (Report.fault f (some m.state))
    throw (.fault f)

end Session

end Chip8
