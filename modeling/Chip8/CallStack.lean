import Chip8.Fault

/-!
# The call stack

Sixteen slots for return addresses and the number of them in use.  A popped slot is cleared.
-/

namespace Chip8

structure CallStack where
  slots : Vector UInt16 16
  depth : Nat
  deriving DecidableEq

namespace CallStack

abbrev capacity : Nat := 16

def empty : CallStack := ⟨Vector.replicate 16 0, 0⟩

/-- Push an address; only its low 16 bits are kept. -/
def push (s : CallStack) (address : Int) : Except Cause CallStack :=
  if capacity ≤ s.depth then .error .stackOverflow
  else .ok ⟨s.slots.setIfInBounds s.depth (UInt16.ofInt address), s.depth + 1⟩

/-- The last address pushed, and the stack without it. -/
def pop (s : CallStack) : Except Cause (UInt16 × CallStack) :=
  match s.depth with
  | 0 => .error .stackUnderflow
  | d + 1 => .ok (s.slots.toArray.getD d 0, ⟨s.slots.setIfInBounds d 0, d⟩)

end CallStack

end Chip8
