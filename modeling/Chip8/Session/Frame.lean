import Chip8.Session

/-!
# One frame

Poll the input and copy the live keypad; execute a burst of instructions; end the frame.  A burst
goes on in rounds until its instructions are completed.  While the program is at a key wait without
a key, a round first waits for one.  If none is down then the burst ends early, and otherwise the same
instruction is executed again, with a key.

In a paced frame every instruction sleeps until its share of the frame has passed.
-/

namespace Chip8.Session

variable {σ : Type}

/-- How a frame is tied to the clock. -/
structure Pace where
  paced : Bool
  start : Float
  deadline : Float
  /-- Seconds per instruction. -/
  period : Float

def Pace.ofRates (r : Rates) (paced : Bool) (start : Float) : Except Number.Overflow Pace := do
  let deadline := start + (← r.frameDuration)
  return { paced, start, deadline, period := ← r.period }

/-- The time that a key wait may take: what is left of a paced frame, and nothing otherwise. -/
def Pace.timeout (p : Pace) (now : Float) : Float :=
  let left := p.deadline - now
  if p.paced && decide (0 < left) then left else 0

def Pace.sleepUntil (p : Pace) (moment : Float) : Act σ :=
  if p.paced then Session.sleepUntil moment else pure ()

/-- Wait for a key, and copy the keypad if one is down. -/
def awaitKey (p : Pace) : Act σ Bool := do
  if ← waitForPress (p.timeout (← get).clock) then
    syncKeypad
    return true
  else
    return false

/-- What a round of a burst comes to. -/
inductive Round where
  /-- The program waits for a key, and none came. -/
  | held
  /-- The program came to a key wait and found no key. -/
  | waits
  /-- An instruction was completed. -/
  | completed
  deriving DecidableEq, Repr

def round (p : Pace) : Act σ Round := do
  if (← get).machine.waiting then
    if !(← awaitKey p) then return .held
  if ← step then return .completed else return .waits

/-- Complete `total` instructions, if no key wait is left without a key. -/
def burst (p : Pace) (total : Nat) : Act σ := do
  let mut executed := 0
  while executed < total do
    match ← round p with
    | .held => break
    | .waits => continue
    | .completed =>
      executed := executed + 1
      p.sleepUntil (p.start + Float.ofNat executed * p.period)

/-! ### Calls to the devices -/

/-- Do what a device asks for.  `run` is what a request to run does. -/
def perform (run : Act σ) : Request → Act σ
  | .stop => stop
  | .reset => reset
  | .run => run
  | .advance seconds => advance seconds
  | .observe => do record (.observed (← get).machine.running)
  | .keypad change => onKeypad fun p => p.change change

/-- Perform the requests of a call one after the other. -/
def performAll (run : Act σ) : List (Turn σ) → Act σ
  | [] => pure ()
  | turn :: turns => do
    let s ← get
    match turn s.machine.keypad.keys s.devices with
    | some request => perform run request
    | none => pure ()
    performAll run turns

def call (run : Act σ) (event : Event) (callback : Callback σ) : Act σ := do
  record event
  let s ← get
  let (devices, turns) := callback s.machine.keypad.keys s.devices
  modify fun s => { s with devices }
  performAll run turns

/-! ### The frame -/

def tick : Act σ := do
  onMachine Machine.tick
  record .ticked

/-- Sound the tone if the sound timer runs. -/
def soundTone (devices : Peripherals σ) (run : Act σ) : Act σ := do
  if 0 < (← get).machine.state.sound then call run .sounded devices.sound

def renderDisplay (devices : Peripherals σ) (run : Act σ) : Act σ := do
  let display := (← get).machine.state.display
  call run (.rendered display) (devices.render display)

/-- Count a frame, and print the statistics when they are due. -/
def countFrame : Act σ := do
  onMachine fun m => { m with frameCount := m.frameCount + 1 }
  let s ← get
  let m := s.machine
  match s.logger.frameStats s.clock m.frameCount m.stats m.settings.logInterval with
  | .ok (logger, entries) =>
    modify fun s => { s with logger }
    print entries
  | .error e => throw (.misuse e)

def endFrame (devices : Peripherals σ) (run : Act σ) : Act σ := do
  soundTone devices run
  tick
  renderDisplay devices run
  countFrame

/-- A frame at a given pace. -/
def pacedFrame (devices : Peripherals σ) (run : Act σ) (pace : Pace) : Act σ := do
  let total := (← get).machine.rates.instructionsPerFrame
  call run .polled devices.poll
  syncKeypad
  burst pace total
  pace.sleepUntil pace.deadline
  endFrame devices run

/-- A frame from now on.  Rates without a time are refused before anything happens. -/
def frame (devices : Peripherals σ) (run : Act σ) (paced : Bool) : Act σ := do
  let s ← get
  match Pace.ofRates s.machine.rates paced s.clock with
  | .ok pace => pacedFrame devices run pace
  | .error e => throw (.overflow e)

end Chip8.Session
