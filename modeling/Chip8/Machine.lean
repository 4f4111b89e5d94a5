import Chip8.Execute
import Chip8.Keypad
import Chip8.Log.Report
import Chip8.Rates

/-!
# The machine

The emulated state together with what surrounds it: the live keypad, the key from which the next
reset draws, the program that was loaded last, the counters, and two flags.  `waiting` says that the
last step was a key wait without a key; `running` guards the run loop.
-/

namespace Chip8

/-- The settings of a machine, as they were given. -/
structure Settings where
  legacyMode : Value := .bool false
  instructionFrequency : Value := .int Rates.standard.frequency
  fps : Value := .int Rates.standard.fps
  /-- Frames between two statistics lines; none are logged if it is not positive. -/
  logInterval : Value := .int 60

structure Machine where
  settings : Settings := {}
  rates : Rates := .standard
  legacy : Bool := false
  keypad : Keypad := {}
  rng : RandomKey
  state : State
  program : List UInt8 := []
  frameCount : Nat := 0
  instructionCount : Nat := 0
  waiting : Bool := false
  running : Bool := false

namespace Machine

/-- A machine with nothing loaded. -/
def create (settings : Settings) (rng : RandomKey) : Except Rates.Error Machine := do
  let rates ← Rates.ofValues settings.instructionFrequency settings.fps
  let legacy := settings.legacyMode.truthy
  return { settings, rates, legacy, rng, state := .initial rng legacy }

/-- The settings that a run reports when it starts. -/
def config (m : Machine) : Fields :=
  [("legacy_mode", m.settings.legacyMode),
   ("instruction_frequency", m.settings.instructionFrequency),
   ("fps", m.settings.fps),
   ("instructions_per_frame", .int m.rates.instructionsPerFrame),
   ("program_size", .int m.program.length)]

def stats (m : Machine) : Fields :=
  [("frames", .int m.frameCount),
   ("instructions", .int m.instructionCount),
   ("pc", .text ("0x" ++ Numeral.hex 3 m.state.pc.toNat)),
   ("waiting_for_key", .bool m.waiting)]

/-- Copy a program into memory and remember it. -/
def load (m : Machine) (program : List UInt8) : Except Cause Machine := do
  return { m with state := ← m.state.load program, program }

/-- A fresh state with the remembered program in it.  The live keypad stays as it is, and the random
key of the new state is split off the machine's own. -/
def reset (m : Machine) : Except Cause Machine := do
  let (rng, key) := m.rng.split
  let state ← (State.initial key m.legacy).load m.program
  return { m with rng, state, frameCount := 0, instructionCount := 0, waiting := false }

/-- Copy the live keypad into the state. -/
def syncKeypad (m : Machine) : Machine :=
  { m with state := { m.state with keys := m.keypad.keys } }

/-- One step of the state, and the word it executed.  A key wait without a key is not counted as an
instruction. -/
def step (m : Machine) : Except Fault (Machine × UInt16) := do
  let (state, word) ← m.state.step
  if m.state.waits state word then
    return ({ m with state, waiting := true }, word)
  else
    let instructionCount := m.instructionCount + 1
    return ({ m with state, waiting := false, instructionCount }, word)

def tick (m : Machine) : Machine := { m with state := m.state.tick }

def stop (m : Machine) : Machine := { m with running := false, keypad := m.keypad.interrupt }

end Machine

end Chip8
