import Chip8.Keypad
import Chip8.State

/-!
# Peripherals

The devices around a machine are called at three moments of a frame: before the first instruction to
poll the input, at the end of the frame to sound the tone while the sound timer runs, and then to
render the display.  A call is shown the live keys.  It may ask the machine for things; each request is
decided when its turn comes, from the live keys and the devices as they are then, since an earlier one
may have changed them.
-/

namespace Chip8

inductive Request where
  | keypad (change : Keypad.Change)
  | stop
  | reset
  /-- Run without a frame limit, paced. -/
  | run
  /-- Let time pass. -/
  | advance (seconds : Float)
  /-- Look at the running flag. -/
  | observe

/-- A request that is decided in its turn. -/
abbrev Turn (σ : Type) := Keys → σ → Option Request

/-- What the devices do when they are called: they change, and then take their turns. -/
abbrev Callback (σ : Type) := Keys → σ → σ × List (Turn σ)

structure Peripherals (σ : Type) where
  poll : Callback σ
  sound : Callback σ
  render : Display → Callback σ

namespace Peripherals

/-- Devices that do nothing. -/
def none {σ : Type} : Peripherals σ where
  poll _ s := (s, [])
  sound _ s := (s, [])
  render _ _ s := (s, [])

end Peripherals

namespace Request

/-- The request touches nothing but the live keypad. -/
def isKeypad : Request → Bool
  | keypad _ => true
  | _ => false

/-- The live keypad after a request.  One that is not about the keypad leaves it as it is. -/
def onKeypad (p : Keypad) : Request → Except Keypad.Error Keypad
  | keypad c => p.change c
  | _ => .ok p

end Request

end Chip8
