import Chip8.Display
import Chip8.Nested
import Chip8.Number.Bounds

/-!
# Sprites

The rows of a sprite as an array literal of any rank: the numbers in it, from left to right, are its
bytes.
-/

namespace Chip8

namespace Sprite

inductive Error where
  | ragged (shape : Shape)
  | overflow (e : Number.Overflow)
  | cause (c : Cause)
  deriving DecidableEq, Repr

/-- The rows of a literal.  Its shape is looked at before its numbers. -/
def rows (sprite : Nested Int) : Except Error (List UInt8) :=
  let shape := sprite.shape
  if shape.ragged then .error (.ragged shape)
  else (Number.bytes sprite.items).mapError .overflow

end Sprite

/-- Draw a sprite that is given as a literal. -/
def Display.drawLiteral (d : Display) (sprite : Nested Int) (x y : Int32) :
    Except Sprite.Error (Display × Bool) := do
  (d.draw (← Sprite.rows sprite) x y).mapError .cause

end Chip8
