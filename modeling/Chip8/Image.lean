import Chip8.Color
import Chip8.Display
import Chip8.Nested
import Chip8.Number.Bounds

/-!
# Images

Rows of pixels, all of one width.  A display becomes an image by colouring its cells and enlarging
each pixel to a square; a scale of one or less does not enlarge.
-/

namespace Chip8

structure Image (α : Type) where
  width : Nat
  rows : List (List α)
  deriving DecidableEq, Repr

namespace Image

variable {α β : Type}

def height (i : Image α) : Nat := i.rows.length

def pixel? (i : Image α) (r c : Nat) : Option α := i.rows[r]?.bind (·[c]?)

def map (f : α → β) (i : Image α) : Image β := ⟨i.width, i.rows.map (·.map f)⟩

def stretch (n : Nat) (l : List α) : List α := l.flatMap (List.replicate n)

/-- Each pixel becomes a square of `n` by `n`. -/
def enlarge (n : Nat) (i : Image α) : Image α :=
  ⟨i.width * n, stretch n (i.rows.map (stretch n))⟩

/-- Enlarge if the scale is above one. -/
def scale (scale : Int) (i : Image α) : Image α :=
  if 1 < scale then i.enlarge scale.toNat else i

/-- The image of rows of cells, which all have the same length. -/
def ofCells (p : Palette) (s : Int) (cells : List (List Bool)) : Image Rgb :=
  scale s ⟨(cells.head?.getD []).length, cells.map (·.map fun lit => if lit then p.on else p.off)⟩

/-- A display's cells are lit unless they are zero. -/
def ofDisplay (p : Palette) (s : Int) (d : Display) : Image Rgb :=
  ofCells p s (d.toList.map fun row => row.toList.map (· != 0))

/-- The image in the upper left corner of a screen of one colour; what sticks out is cut off. -/
def onScreen (i : Image α) (width height : Nat) (ground : α) : Image α :=
  let row (l : List α) := (l ++ List.replicate (width - l.length) ground).take width
  let below := List.replicate (height - i.height) (List.replicate width ground)
  ⟨width, (i.rows.map row ++ below).take height⟩

/-! ### Literals -/

inductive Error where
  | ragged (shape : Shape)
  | rank (dims : Nat)
  | channel (e : Number.Overflow)
  /-- A colour of `channels` channels for `pixels` pixels. -/
  | channels (channels pixels : Nat)
  deriving DecidableEq, Repr

def Error.message : Error → String
  | ragged shape => shape.raggedMessage
  | rank n =>
    if n < 2 then "not enough values to unpack (expected 2, got " ++ Numeral.decimal n ++ ")"
    else "too many values to unpack (expected 2)"
  | channel e => e.message
  | channels n pixels =>
    "shape mismatch: value array of shape (" ++ Numeral.decimal n ++
      ",) could not be broadcast to indexing result of shape (" ++ Numeral.decimal pixels ++ ",3)"

/-- A colour of three channels, or of one channel for all three. -/
def color (channels : List Int) (pixels : Nat) : Except Error Rgb :=
  match Number.bytes channels with
  | .error e => .error (.channel e)
  | .ok [r, g, b] => .ok ⟨r, g, b⟩
  | .ok [v] => .ok ⟨v, v, v⟩
  | .ok l => .error (.channels l.length pixels)

/-- The image of a literal of rank two.  The colour of lit pixels is looked at first. -/
def ofLiteral (on off : List Int) (s : Int) (pixels : Nested Int) : Except Error (Image Rgb) := do
  let shape := pixels.shape
  if shape.ragged then throw (.ragged shape)
  if shape.dims.length ≠ 2 then throw (.rank shape.dims.length)
  let cells := pixels.rows.map (·.map (· != 0))
  let lit := cells.flatten.countP id
  let on ← color on lit
  let off ← color off (cells.flatten.length - lit)
  return ofCells ⟨on, off⟩ s cells

/-! ### Enlarging -/

theorem length_stretch (n : Nat) (l : List α) : (stretch n l).length = l.length * n := by
  induction l with
  | nil => simp [stretch]
  | cons a l ih =>
    simp only [stretch, List.flatMap_cons, List.length_append, List.length_replicate,
      List.length_cons, Nat.succ_mul] at ih ⊢
    omega

/-- The items of a stretched list are those of the list, each `n` times. -/
theorem getElem?_stretch {n : Nat} (hn : 0 < n) (l : List α) (i : Nat) :
    (stretch n l)[i]? = l[i / n]? := by
  induction l generalizing i with
  | nil => simp [stretch]
  | cons a l ih =>
    have hs : stretch n (a :: l) = List.replicate n a ++ stretch n l := rfl
    by_cases h : i < n
    · rw [hs, List.getElem?_append_left (by simpa using h), List.getElem?_replicate, if_pos h,
        Nat.div_eq_of_lt h]
      rfl
    · rw [hs, List.getElem?_append_right (by simpa using h), List.length_replicate, ih]
      have : i / n = (i - n) / n + 1 := by rw [← Nat.add_div_right _ hn]; congr 1; omega
      rw [this, List.getElem?_cons_succ]

theorem pixel?_enlarge {n : Nat} (hn : 0 < n) (i : Image α) (r c : Nat) :
    (i.enlarge n).pixel? r c = i.pixel? (r / n) (c / n) := by
  simp only [pixel?, enlarge, getElem?_stretch hn, List.getElem?_map]
  cases i.rows[r / n]? <;> simp [getElem?_stretch hn]

end Image

end Chip8
