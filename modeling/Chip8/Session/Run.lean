import Chip8.Session.Frame

/-!
# Runs

Frames one after the other until the machine is stopped, the limit is reached, or a failure ends the
run.  The limit is looked at after a frame, so a run that starts has at least one.  However it ends,
the machine is then stopped and the end is logged.

A device may ask for a run from within a frame, and that run is refused while the machine runs.
`fuel` bounds the frames of a run, and of the runs inside it, from above; a run that needs more
fails as `unfinished`.
-/

namespace Chip8.Session

variable {σ : Type}

def enter : Act σ := do
  onMachine fun m => { m with running := true }
  record .began
  print (Report.runStart (← get).machine.config)

def leave : Act σ := do
  onMachine fun m => { m with running := false }
  record .ended
  let s ← get
  print (Report.runEnd (s.clock - s.logger.started) s.machine.stats)

/-- Start a run, go through its frames by `loop`, and end it. -/
def guarded (loop : Act σ) : Act σ := do
  if (← get).machine.running then throw .alreadyRunning
  enter
  let result ← ExceptT.lift loop.run
  leave
  match result with
  | .ok _ => pure ()
  | .error e => throw e

/-- Frames while the machine runs; `done` of them are behind. -/
def frames (devices : Peripherals σ) (paced : Bool) (limit : Option Int) :
    (fuel : Nat) → (done : Nat) → Act σ
  | 0, _ => throw .unfinished
  | fuel + 1, done => do
    if (← get).machine.running then
      frame devices (guarded (frames devices true none fuel 0)) paced
      match limit with
      | some n => if (done + 1 : Int) < n then frames devices paced limit fuel (done + 1)
      | none => frames devices paced limit fuel (done + 1)

/-- Run until stopped, or for `limit` frames. -/
def run (devices : Peripherals σ) (fuel : Nat) (limit : Option Int) (paced : Bool) : Act σ :=
  guarded (frames devices paced limit fuel 0)

/-- A single frame outside a run. -/
def runFrame (devices : Peripherals σ) (fuel : Nat) (paced : Bool) : Act σ :=
  frame devices (run devices fuel none true) paced

end Chip8.Session
