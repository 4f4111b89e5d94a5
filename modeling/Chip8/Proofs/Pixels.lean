import Chip8.Proofs.Grid
import Chip8.Proofs.Literal

/-!
# The pixels of an image

A literal of numbers becomes an image in two steps: a cell takes one of two colours, and a pixel becomes a
square.  So a pixel has the colour of the cell whose square it lies in, and the corner of a square shows
whether its cell is lit.

* `pixel?_scale`          a pixel of an enlarged image, for any scale;
* `ofLiteral_eq`          a literal of two dimensions has an image, whatever the colours are;
* `sized_ofCells`, `pixel?_ofCells`   its size and its pixels;
* `nearest_cell_colored`  the main statement.
-/

namespace Chip8

/-- The item in row `r` and column `c` of a literal of two dimensions. -/
def Nested.cell? {α : Type} (m : Nested α) (r c : Nat) : Option α := m.rows[r]?.bind (·[c]?)

namespace Image

/-! ### Enlarged images -/

section
variable {α β : Type}

theorem pixel?_scale (s : Int) (i : Image α) (r c : Nat) :
    (i.scale s).pixel? r c = i.pixel? (r / (max 1 s).toNat) (c / (max 1 s).toNat) := by
  rw [scale]
  split
  · rename_i hs
    rw [Int.max_eq_right (Int.le_of_lt hs)]
    exact i.pixel?_enlarge (by omega) r c
  · rename_i hs
    rw [Int.max_eq_left (Int.not_lt.mp hs), Int.toNat_one, Nat.div_one, Nat.div_one]

theorem pixel?_map (f : α → β) (i : Image α) (r c : Nat) :
    (i.map f).pixel? r c = (i.pixel? r c).map f := by
  rw [pixel?, map, List.getElem?_map, pixel?]
  cases i.rows[r]? with
  | none => rfl
  | some row => exact List.getElem?_map

end

/-! ### Colours and cells -/

theorem bytes_channels (c : Rgb) : Number.bytes c.channels = .ok [c.red, c.green, c.blue] := by
  have hbyte (b : UInt8) : Number.byte b.toNat = .ok b := by
    rw [Number.byte_natCast _ b.toNat_lt, UInt8.ofNat_toNat]
  rw [Number.bytes, Rgb.channels]
  simp only [List.mapM_cons, List.mapM_nil, hbyte]
  rfl

/-- A colour that is given by its channels is accepted, for any number of pixels. -/
theorem color_channels (c : Rgb) (pixels : Nat) : color c.channels pixels = .ok c := by
  rw [color, bytes_channels]

variable {w h : Nat} {cells : List (List Bool)}

/-- An image is as wide as the first row of cells, and there is one. -/
theorem width_head (hcells : Grid w h cells) (hpos : 0 < h) : (cells.head?.getD []).length = w := by
  cases cells with
  | nil =>
    have hheight : 0 = h := hcells.height
    omega
  | cons row rows => exact hcells.width row List.mem_cons_self

theorem sized_ofCells (p : Palette) (s : Int) (hcells : Grid w h cells) (hpos : 0 < h) :
    (ofCells p s cells).Sized (w * (max 1 s).toNat) (h * (max 1 s).toNat) := by
  have hcolored : Sized w h ⟨(cells.head?.getD []).length,
      cells.map (·.map fun lit => if lit then p.on else p.off)⟩ :=
    ⟨width_head hcells hpos, hcells.map _⟩
  exact hcolored.scale s

theorem pixel?_ofCells (p : Palette) (s : Int) (cells : List (List Bool)) (i j : Nat) :
    (ofCells p s cells).pixel? i j =
      (cells[i / (max 1 s).toNat]?.bind (·[j / (max 1 s).toNat]?)).map
        fun lit => if lit then p.on else p.off := by
  rw [ofCells, pixel?_scale, pixel?, List.getElem?_map]
  cases cells[i / (max 1 s).toNat]? with
  | none => rfl
  | some row => exact List.getElem?_map

/-! ### Literals -/

variable {pixels : Nested Int}

/-- Which cells of a literal of two dimensions are lit. -/
def lights (pixels : Nested Int) : List (List Bool) := pixels.rows.map (·.map (· != 0))

/-- A literal of two dimensions has an image in any two colours. -/
theorem ofLiteral_eq (hshape : pixels.shape = ⟨[h, w], false⟩) (p : Palette) (s : Int) :
    ofLiteral p.on.channels p.off.channels s pixels = .ok (ofCells p s (lights pixels)) := by
  rw [ofLiteral, hshape]
  simp only [color_channels]
  rfl

theorem grid_rows (hshape : pixels.shape = ⟨[h, w], false⟩) : Grid w h pixels.rows := by
  obtain ⟨hheight, hwidth⟩ := Nested.rows_of_shape hshape
  exact ⟨hheight, hwidth⟩

theorem height_pos_of_shape (hshape : pixels.shape = ⟨[h, w], false⟩) : 0 < h := by
  obtain ⟨ms, rfl⟩ := Nested.exists_list_of_shape hshape
  exact Nested.pos_of_shape hshape

theorem exists_cell (hshape : pixels.shape = ⟨[h, w], false⟩) {r c : Nat} (hr : r < h) (hc : c < w) :
    ∃ x, pixels.cell? r c = some x := by
  obtain ⟨hheight, hwidth⟩ := grid_rows hshape
  have hrow : r < pixels.rows.length := hheight.symm ▸ hr
  have hcell : c < pixels.rows[r].length := (hwidth _ (List.getElem_mem hrow)).symm ▸ hc
  refine ⟨pixels.rows[r][c], ?_⟩
  rw [Nested.cell?, List.getElem?_eq_getElem hrow]
  exact List.getElem?_eq_getElem hcell

/-- A pixel has the colour of the cell in whose square it lies. -/
theorem pixel?_of_cell (p : Palette) (s : Int) {i j : Nat} {x : Int}
    (hx : pixels.cell? (i / (max 1 s).toNat) (j / (max 1 s).toNat) = some x) :
    (ofCells p s (lights pixels)).pixel? i j = some (if x ≠ 0 then p.on else p.off) := by
  obtain ⟨row, hrow, hcell⟩ := Option.bind_eq_some_iff.mp hx
  rw [pixel?_ofCells, lights, List.getElem?_map, hrow, Option.map_some, Option.bind_some,
    List.getElem?_map, hcell, Option.map_some, Option.map_some]
  simp only [bne_iff_ne]

theorem colored_eq_on_iff {on off : Rgb} (hne : on ≠ off) {x : Int} :
    (if x ≠ 0 then on else off) = on ↔ x ≠ 0 := by
  rw [ite_eq_left_iff]
  exact ⟨fun h hx => hne (h (not_not_intro hx)).symm, fun hx h => absurd hx h⟩

theorem colored_eq_off_iff {on off : Rgb} (hne : on ≠ off) {x : Int} :
    (if x ≠ 0 then on else off) = off ↔ x = 0 := by
  rw [ite_eq_right_iff]
  exact ⟨fun h => Decidable.not_not.mp fun hx => hne (h hx), fun hx h => absurd hx h⟩

/-- **An image shows its literal, each cell as a square**, with a scale below one counting as one.  If the
two colours differ, the corners of the squares tell of every cell whether it is lit. -/
theorem nearest_cell_colored (hshape : pixels.shape = ⟨[h, w], false⟩) (on off : Rgb) (scale : Int) :
    let s := (max 1 scale).toNat
    ∃ image, ofLiteral on.channels off.channels scale pixels = .ok image ∧
      image.Sized (w * s) (h * s) ∧
      (∀ i < h * s, ∀ j < w * s, ∃ x, pixels.cell? (i / s) (j / s) = some x ∧
        image.pixel? i j = some (if x ≠ 0 then on else off)) ∧
      (on ≠ off → ∀ r < h, ∀ c < w, ∃ x, pixels.cell? r c = some x ∧
        (image.pixel? (s * r) (s * c) = some on ↔ x ≠ 0) ∧
        (image.pixel? (s * r) (s * c) = some off ↔ x = 0)) := by
  intro s
  have hs : 0 < s := by omega
  have hsize := sized_ofCells ⟨on, off⟩ scale ((grid_rows hshape).map (· != 0)) (height_pos_of_shape hshape)
  refine ⟨_, ofLiteral_eq hshape ⟨on, off⟩ scale, hsize, fun i hi j hj => ?_, fun hne r hr c hc => ?_⟩
  · obtain ⟨x, hx⟩ := exists_cell hshape (Nat.div_lt_of_lt_mul (Nat.mul_comm h s ▸ hi))
      (Nat.div_lt_of_lt_mul (Nat.mul_comm w s ▸ hj))
    exact ⟨x, hx, pixel?_of_cell ⟨on, off⟩ scale hx⟩
  · obtain ⟨x, hx⟩ := exists_cell hshape hr hc
    have hcorner : pixels.cell? (s * r / s) (s * c / s) = some x := by
      rw [Nat.mul_div_cancel_left r hs, Nat.mul_div_cancel_left c hs]
      exact hx
    rw [pixel?_of_cell ⟨on, off⟩ scale hcorner, Option.some_inj, Option.some_inj]
    exact ⟨x, hx, colored_eq_on_iff hne, colored_eq_off_iff hne⟩

/-- Two rows of three numbers, three times as large; a number below zero is lit. -/
theorem nearest_cell_colored_tripled :
    let pixels : Nested Int := .list [.list [.item 0, .item 7, .item 0], .list [.item (-3), .item 0, .item 0]]
    let on : Rgb := ⟨255, 204, 0⟩
    let off : Rgb := ⟨153, 102, 0⟩
    pixels.shape = ⟨[2, 3], false⟩ ∧ on ≠ off ∧
      ∃ image, ofLiteral on.channels off.channels 3 pixels = .ok image ∧ image.width = 9 ∧
        image.height = 6 ∧ image.pixel? 5 2 = some on ∧ image.pixel? 2 6 = some off ∧
        image.pixel? 3 0 = some on := by
  intro pixels on off
  have hshape : pixels.shape = ⟨[2, 3], false⟩ := by decide
  have hne : on ≠ off := by decide
  obtain ⟨image, himage, hsize, hpixel, hcorner⟩ := nearest_cell_colored hshape on off 3
  obtain ⟨x, hx, hlit⟩ := hpixel 5 (by decide) 2 (by decide)
  obtain ⟨y, hy, hdark⟩ := hpixel 2 (by decide) 6 (by decide)
  obtain ⟨z, hz, hon, -⟩ := hcorner hne 1 (by decide) 0 (by decide)
  cases show pixels.cell? 1 0 = some x from hx
  cases show pixels.cell? 0 2 = some y from hy
  cases show pixels.cell? 1 0 = some z from hz
  exact ⟨hshape, hne, image, himage, hsize.width, hsize.height, hlit, hdark, hon.mpr (by decide)⟩

end Image

end Chip8
