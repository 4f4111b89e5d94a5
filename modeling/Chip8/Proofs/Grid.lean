import Chip8.Image

/-!
# Grids

Rows of one length, and what keeps them so.

* `Grid w h rows`      there are `h` rows, each of `w` members;
* `Image.Sized w h`    the image is `w` wide and `h` high, and so are its rows;
* `Image.Sized.scale`  a scale above one multiplies both, and one below leaves them alone.
-/

namespace Chip8
variable {α β γ : Type} {w h : Nat}

structure Grid (w h : Nat) (rows : List (List α)) : Prop where
  height : rows.length = h
  width : ∀ row ∈ rows, row.length = w

namespace Grid

theorem map {rows : List (List α)} (hg : Grid w h rows) (f : α → β) :
    Grid w h (rows.map (·.map f)) where
  height := List.length_map _ |>.trans hg.height
  width := by
    intro row hrow
    obtain ⟨row, hmem, rfl⟩ := List.mem_map.mp hrow
    rw [List.length_map, hg.width row hmem]

/-- Two grids of one size are put together member by member. -/
theorem zipWith {a : List (List α)} {b : List (List β)} (ha : Grid w h a) (hb : Grid w h b)
    (f : α → β → γ) : Grid w h (List.zipWith (List.zipWith f) a b) where
  height := by rw [List.length_zipWith, ha.height, hb.height, Nat.min_self]
  width := by
    intro row hrow
    rw [← List.map_uncurry_zip_eq_zipWith] at hrow
    obtain ⟨⟨x, y⟩, hxy, rfl⟩ := List.mem_map.mp hrow
    obtain ⟨hx, hy⟩ := List.of_mem_zip hxy
    show (List.zipWith f x y).length = w
    rw [List.length_zipWith, ha.width x hx, hb.width y hy, Nat.min_self]

theorem replicate (a : α) : Grid w h (List.replicate h (List.replicate w a)) where
  height := List.length_replicate
  width := by
    intro row hrow
    rw [List.eq_of_mem_replicate hrow, List.length_replicate]

/-- Each member becomes a square. -/
theorem stretch {rows : List (List α)} (hg : Grid w h rows) (n : Nat) :
    Grid (w * n) (h * n) (Image.stretch n (rows.map (Image.stretch n))) where
  height := by rw [Image.length_stretch, List.length_map, hg.height]
  width := by
    intro row hrow
    obtain ⟨row', hrow', hrep⟩ := List.mem_flatMap.mp hrow
    obtain ⟨row'', hmem, rfl⟩ := List.mem_map.mp hrow'
    rw [List.eq_of_mem_replicate hrep, Image.length_stretch, hg.width row'' hmem]

end Grid

namespace Image

/-- The image has this width and this height, and its rows make a grid of them. -/
structure Sized (w h : Nat) (i : Image α) : Prop where
  width : i.width = w
  grid : Grid w h i.rows

variable {i : Image α}

theorem Sized.height (hi : i.Sized w h) : i.height = h := hi.grid.height

theorem Sized.enlarge (hi : i.Sized w h) (n : Nat) : (i.enlarge n).Sized (w * n) (h * n) where
  width := congrArg (· * n) hi.width
  grid := hi.grid.stretch n

/-- A scale below one counts as one. -/
theorem Sized.scale (hi : i.Sized w h) (s : Int) :
    (i.scale s).Sized (w * (max 1 s).toNat) (h * (max 1 s).toNat) := by
  rw [Image.scale]
  split
  · rename_i hs
    rw [Int.max_eq_right (Int.le_of_lt hs)]
    exact hi.enlarge s.toNat
  · rename_i hs
    rw [Int.max_eq_left (Int.not_lt.mp hs), Int.toNat_one, Nat.mul_one, Nat.mul_one]
    exact hi

end Image

end Chip8
