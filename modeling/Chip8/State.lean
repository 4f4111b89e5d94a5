import Chip8.CallStack
import Chip8.Display
import Chip8.Keys
import Chip8.Memory
import Chip8.Random

/-!
# The machine state

All that a program can read or change.  `keys` is a snapshot: the live keypad is copied here by
the one who drives the machine.  In legacy mode the shifts read `VY`, and saving and loading
registers moves the index on.
-/

namespace Chip8

/-- The glyphs of the hexadecimal digits, five rows each. -/
def font : List UInt8 :=
  [0xF0, 0x90, 0x90, 0x90, 0xF0,
   0x20, 0x60, 0x20, 0x20, 0x70,
   0xF0, 0x10, 0xF0, 0x80, 0xF0,
   0xF0, 0x10, 0xF0, 0x10, 0xF0,
   0x90, 0x90, 0xF0, 0x10, 0x10,
   0xF0, 0x80, 0xF0, 0x10, 0xF0,
   0xF0, 0x80, 0xF0, 0x90, 0xF0,
   0xF0, 0x10, 0x20, 0x40, 0x40,
   0xF0, 0x90, 0xF0, 0x90, 0xF0,
   0xF0, 0x90, 0xF0, 0x10, 0xF0,
   0xF0, 0x90, 0xF0, 0x90, 0x90,
   0xE0, 0x90, 0xE0, 0x90, 0xE0,
   0xF0, 0x80, 0x80, 0x80, 0xF0,
   0xE0, 0x90, 0x90, 0x90, 0xE0,
   0xF0, 0x80, 0xF0, 0x80, 0xF0,
   0xF0, 0x80, 0xF0, 0x80, 0x80]

abbrev fontStart : Nat := 0

abbrev glyphSize : Nat := 5

/-- Memory with nothing but the font in it. -/
def Memory.fresh : Memory :=
  Memory.store (Vector.replicate 4096 0) fontStart font

structure State where
  rng : RandomKey
  memory : Memory
  pc : UInt16
  display : Display
  stack : CallStack
  delay : UInt8
  sound : UInt8
  keys : Keys
  v : Vector UInt8 16
  index : UInt16
  legacy : Bool
  deriving DecidableEq

namespace State

abbrev registerCount : Nat := 16

/-- The register that receives carries, borrows and collisions. -/
abbrev flag : Fin 16 := 15

def initial (rng : RandomKey) (legacy : Bool) : State where
  rng
  memory := .fresh
  pc := 0x200
  display := .blank
  stack := .empty
  delay := 0
  sound := 0
  keys := .none
  v := Vector.replicate 16 0
  index := 0
  legacy

def setV (s : State) (x : Fin 16) (value : UInt8) : State :=
  { s with v := s.v.set x value (Number.lt_sixteen x) }

/-- Step over the next word. -/
def skip (s : State) : State := { s with pc := s.pc + 2 }

/-- Both timers go down by one, and stay at zero. -/
def tick (s : State) : State :=
  { s with
    delay := if s.delay = 0 then 0 else s.delay - 1
    sound := if s.sound = 0 then 0 else s.sound - 1 }

def load (s : State) (program : List UInt8) : Except Cause State := do
  return { s with memory := ← s.memory.load program }

theorem getV_setV_self (s : State) (x : Fin 16) (value : UInt8) : (s.setV x value).v.get x = value :=
  Vector.getElem_set_self (Number.lt_sixteen x)

theorem getV_setV_of_ne (s : State) {x k : Fin 16} (h : k ≠ x) (value : UInt8) :
    (s.setV x value).v.get k = s.v.get k :=
  Vector.getElem_set_ne x.2 k.2 fun e => h (Fin.ext e.symm)

theorem tick_delay (s : State) : s.tick.delay.toNat = s.delay.toNat - 1 := by
  unfold tick
  dsimp only
  split
  · rename_i h
    simp [h]
  · rename_i h
    have : s.delay.toNat ≠ 0 := fun e => h (UInt8.toNat_inj.mp e)
    rw [UInt8.toNat_sub_of_le]
    · rfl
    · rw [UInt8.le_iff_toNat_le]
      simp
      omega

theorem tick_sound (s : State) : s.tick.sound.toNat = s.sound.toNat - 1 := by
  unfold tick
  dsimp only
  split
  · rename_i h
    simp [h]
  · rename_i h
    have : s.sound.toNat ≠ 0 := fun e => h (UInt8.toNat_inj.mp e)
    rw [UInt8.toNat_sub_of_le]
    · rfl
    · rw [UInt8.le_iff_toNat_le]
      simp
      omega

end State

end Chip8
