import Chip8.Fault

/-!
# The display

A torus of 32 rows and 64 columns.  Drawing lays a sprite of one to fifteen rows of eight pixels on
it, with its corner at any 32-bit coordinates, and flips the pixels under the sprite's one bits.
A cell is a byte of which only the lowest bit is ever flipped.
-/

namespace Chip8

abbrev Display := Vector (Vector UInt8 64) 32

namespace Display

abbrev width : Nat := 64

abbrev height : Nat := 32

abbrev minSpriteRows : Nat := 1

abbrev maxSpriteRows : Nat := 15

def ofFn (f : Fin 32 → Fin 64 → UInt8) : Display :=
  Vector.ofFn fun r => Vector.ofFn fun c => f r c

def blank : Display := ofFn fun _ _ => 0

/-- The pixel in a column of a sprite row; the most significant bit is the leftmost. -/
def spritePixel (row : UInt8) (column : Fin 8) : UInt8 :=
  (row >>> (7 - UInt8.ofNat column.val)) &&& 1

/-- How far a cell lies behind the corner along an axis of `n` cells, around the torus.  Coordinates
are words of 32 bits with a sign, and their difference wraps. -/
def offset (n cell : Nat) (corner : Int32) : Nat := ((Int32.ofNat cell - corner).toInt % n).toNat

/-- What the sprite with its corner in column `x` and row `y` holds over a cell: the cell's offset
from the corner is its place in the sprite.  A place beyond the sprite is looked up in its last row or
column and then counts for nothing. -/
def spriteAt (sprite : List UInt8) (x y : Int32) (r : Fin 32) (c : Fin 64) : UInt8 :=
  let row := offset height r y
  let column := offset width c x
  let bits := sprite.getD (min row (sprite.length - 1)) 0
  let pixel := spritePixel bits ⟨min column 7, by omega⟩
  if row < sprite.length ∧ column < 8 then pixel else 0

def flip (d mask : Display) : Display :=
  Vector.zipWith (fun a b => Vector.zipWith (· ^^^ ·) a b) d mask

/-- Some cell has a bit in common with the mask. -/
def meets (d mask : Display) : Bool :=
  (Vector.zipWith (fun a b => (Vector.zipWith (· &&& ·) a b).any (· != 0)) d mask).any id

/-- Draw a sprite; the flag says whether a lit pixel was put out. -/
def draw (d : Display) (sprite : List UInt8) (x y : Int32) : Except Cause (Display × Bool) :=
  if sprite.length < minSpriteRows ∨ maxSpriteRows < sprite.length then .error (.spriteHeight sprite.length)
  else
    let mask := ofFn (spriteAt sprite x y)
    .ok (d.flip mask, d.meets mask)

/-! ### Cells -/

def cell (d : Display) (r : Fin 32) (c : Fin 64) : UInt8 := d[r][c]

@[ext] theorem ext_cell {d e : Display} (h : ∀ r c, d.cell r c = e.cell r c) : d = e := by
  refine Vector.ext fun r hr => Vector.ext fun c hc => ?_
  exact h ⟨r, hr⟩ ⟨c, hc⟩

@[simp] theorem cell_ofFn (f : Fin 32 → Fin 64 → UInt8) (r : Fin 32) (c : Fin 64) :
    (ofFn f).cell r c = f r c := by
  simp only [cell, ofFn, Fin.getElem_fin, Vector.getElem_ofFn, Fin.eta]

@[simp] theorem cell_flip (d mask : Display) (r : Fin 32) (c : Fin 64) :
    (d.flip mask).cell r c = d.cell r c ^^^ mask.cell r c := by
  simp only [cell, flip, Fin.getElem_fin, Vector.getElem_zipWith]

@[simp] theorem cell_blank (r : Fin 32) (c : Fin 64) : blank.cell r c = 0 := by
  rw [blank, cell_ofFn]

theorem meets_iff (d mask : Display) :
    d.meets mask = true ↔ ∃ r c, d.cell r c &&& mask.cell r c ≠ 0 := by
  simp only [meets, Vector.any_eq_true, cell, Fin.getElem_fin, Vector.getElem_zipWith, id,
    bne_iff_ne]
  constructor
  · rintro ⟨r, hr, c, hc, h⟩
    exact ⟨⟨r, hr⟩, ⟨c, hc⟩, h⟩
  · rintro ⟨r, c, h⟩
    exact ⟨r, r.2, c, c.2, h⟩

end Display

end Chip8
