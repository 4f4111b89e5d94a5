import Mathlib.Data.List.Forall2
import Chip8.Proofs.FrameSize
import Chip8.Proofs.Invariant

/-!
# The pixels of the frames of a video

Without persistence a frame of a video shows what the image of its display shows.  The one mixes two colours
by the brightness of a pixel, in numbers with a point, and cuts each channel off to a byte; the other takes
one of the two colours.  On the brightness of zeros and ones and the colours of the palettes nothing is lost
by the mixing.

* `map_scale`       colours may be changed before an image is enlarged;
* `levels_steady`   without persistence the brightness of a frame is that of its cells;
* `shade_cell`      a cell of zero or one is mixed to one of the two colours;
* `picture_eq`      a frame is an image with the channels the other way round;
* `frames_are_images`   the main statement.
-/

namespace Chip8

namespace Image
variable {α β : Type}

theorem map_stretch (f : α → β) (n : Nat) (l : List α) : (stretch n l).map f = stretch n (l.map f) := by
  rw [stretch, stretch, List.map_flatMap, List.flatMap_map]
  simp only [List.map_replicate]

theorem map_enlarge (f : α → β) (n : Nat) (i : Image α) : (i.enlarge n).map f = (i.map f).enlarge n := by
  simp only [map, enlarge, map_stretch, List.map_map, Function.comp_def]

theorem map_scale (f : α → β) (s : Int) (i : Image α) : (i.scale s).map f = (i.map f).scale s := by
  rw [scale, scale]
  split
  · exact map_enlarge f s.toNat i
  · rfl

end Image

/-- A palette that has a name is one of those that are listed. -/
theorem Palette.mem_named {scheme : String} {p : Palette} (hp : ofName scheme = .ok p) :
    p ∈ named.map Prod.snd := by
  rw [ofName] at hp
  split at hp
  · rename_i q hlookup
    cases hp
    obtain ⟨before, after, hnamed, -⟩ := List.lookup_eq_some_iff.mp hlookup
    rw [hnamed, List.map_append, List.map_cons]
    exact List.mem_append_right _ List.mem_cons_self
  · cases hp

namespace Video
open Image

/-! ### Brightness without persistence -/

theorem levels_steady (before : Levels) (frames : List (List (List Int))) :
    levels false before frames = frames.map (·.map (·.map Float32.ofInt)) := by
  induction frames generalizing before with
  | nil => rfl
  | cons frame frames ih =>
    rw [levels, ih]
    rfl

theorem shade_named : ∀ p ∈ Palette.named.map Prod.snd,
    shade p (Float32.ofInt 0) = p.off ∧ shade p (Float32.ofInt 1) = p.on := by
  decide +kernel

variable {scheme : String} {p : Palette}

/-- At the brightness of a cell that is zero or one, the mixture of two colours is one of them. -/
theorem shade_cell (hp : Palette.ofName scheme = .ok p) {x : Int} (hx : x = 0 ∨ x = 1) :
    shade p (Float32.ofInt x) = if (x != 0) = true then p.on else p.off := by
  obtain ⟨hoff, hon⟩ := shade_named p (Palette.mem_named hp)
  obtain rfl | rfl := hx
  · exact hoff
  · exact hon

/-! ### Frames and images -/

/-- The frame of a display of zeros and ones is the display's image. -/
theorem picture_eq (hp : Palette.ofName scheme = .ok p) {d : Nested Int}
    (hd : d.shape = ⟨[32, 64], false⟩) (hbinary : ∀ x ∈ d.items, x = 0 ∨ x = 1) (scale : Int) :
    picture p scale (d.rows.map (·.map Float32.ofInt)) =
      (ofCells p scale (lights d)).map Rgb.bgr := by
  have hwidth : ((lights d).head?.getD []).length = 64 :=
    width_head ((grid_rows hd).map (· != 0)) (height_pos_of_shape hd)
  have hrow : ∀ row ∈ d.rows, (row.map Float32.ofInt).map (fun l => (shade p l).bgr) =
      ((row.map (· != 0)).map fun lit => if lit then p.on else p.off).map Rgb.bgr := by
    intro row hrow
    simp only [List.map_map]
    refine List.map_congr_left fun x hx => ?_
    exact congrArg Rgb.bgr (shade_cell hp (hbinary x (Nested.mem_items_of_mem_rows hrow hx)))
  have hrows : (d.rows.map (·.map Float32.ofInt)).map (·.map fun l => (shade p l).bgr) =
      ((lights d).map (·.map fun lit => if lit then p.on else p.off)).map (·.map Rgb.bgr) := by
    simp only [lights, List.map_map]
    exact List.map_congr_left hrow
  rw [picture, ofCells, map_scale, hwidth, hrows]
  rfl

variable {displays : List (Nested Int)} {n : Nat}

/-- What is asked of the encoder of steady frames. -/
theorem calls_ofFrames_steady (hp : Palette.ofName scheme = .ok p)
    (hshape : ∀ d ∈ displays, d.shape = ⟨[32, 64], false⟩)
    (hbinary : ∀ d ∈ displays, ∀ x ∈ d.items, x = 0 ∨ x = 1) (filename : Value) (scale : Int) :
    (Encoder.ofFrames filename scale p false (displays.map Nested.rows)).calls =
      (displays.map fun d => .write ((ofCells p scale (lights d)).map Rgb.bgr)) ++ [.release] := by
  have hpictures : (levels false dark (displays.map Nested.rows)).map (picture p scale) =
      displays.map fun d => (ofCells p scale (lights d)).map Rgb.bgr := by
    rw [levels_steady, List.map_map, List.map_map]
    exact List.map_congr_left fun d hd => picture_eq hp (hshape d hd) (hbinary d hd) scale
  rw [Encoder.ofFrames, Encoder.encode, hpictures, List.map_map]
  rfl

/-- **A frame of a video without persistence is the image of its display**, with the channels the other way
round.  The encoder is asked to write these images in their order and then to release, and nothing more. -/
theorem frames_are_images (hshape : (Nested.list displays).shape = ⟨[n, 32, 64], false⟩)
    (hbinary : ∀ x ∈ (Nested.list displays).items, x = 0 ∨ x = 1)
    (hp : Palette.ofName scheme = .ok p) (filename rate : Value) (scale : Int) :
    ∃ e images, (save (.list displays) filename rate (.int scale) scheme false).1 = some e ∧
      0 < n ∧ images.length = n ∧
      List.Forall₂ (fun d image => Image.ofLiteral p.on.channels p.off.channels scale d = .ok image)
        displays images ∧
      e.calls = images.map (fun image => .write (image.map Rgb.bgr)) ++ [.release] := by
  have hshapes : ∀ d ∈ displays, d.shape = ⟨[32, 64], false⟩ := fun d hd => shape_of_mem hshape hd
  have hbinaries : ∀ d ∈ displays, ∀ x ∈ d.items, x = 0 ∨ x = 1 := by
    intro d hd x hx
    refine hbinary x ?_
    rw [Nested.items, Nested.itemsAll_eq]
    exact List.mem_flatMap.mpr ⟨d, hd, hx⟩
  obtain ⟨hlength, -⟩ := Nested.members_of_shape hshape
  refine ⟨_, displays.map fun d => ofCells p scale (lights d),
    save_eq (cells_list hshape) hp filename rate scale false, Nested.pos_of_shape hshape, ?_, ?_, ?_⟩
  · rw [List.length_map, hlength]
  · rw [List.forall₂_map_right_iff, List.forall₂_same]
    exact fun d hd => ofLiteral_eq (hshapes d hd) p scale
  · rw [calls_ofFrames_steady hp hshapes hbinaries, List.map_map]
    rfl

/-- A pixel of a frame, by the cell in whose square it lies. -/
theorem pixel?_frame {d : Nested Int} {image : Image Rgb} (hd : d.shape = ⟨[32, 64], false⟩) {scale : Int}
    (himage : Image.ofLiteral p.on.channels p.off.channels scale d = .ok image) {i j : Nat} {x : Int}
    (hx : d.cell? (i / (max 1 scale).toNat) (j / (max 1 scale).toNat) = some x) :
    (image.map Rgb.bgr).pixel? i j = some (if x ≠ 0 then p.on else p.off).bgr := by
  cases (ofLiteral_eq hd p scale).symm.trans himage
  rw [pixel?_map, pixel?_of_cell p scale hx]
  rfl

/-- The frames of displays of zeros and ones, as they were recorded. -/
theorem binary_ofDisplays {displays : List Display} (h : ∀ d ∈ displays, d.Binary) :
    ∀ x ∈ (ofDisplays displays).items, x = 0 ∨ x = 1 := by
  intro x hx
  simp only [ofDisplays, Nested.items, Nested.itemsAll_eq, List.flatMap_map, List.mem_flatMap,
    List.mem_singleton] at hx
  obtain ⟨d, hd, row, hrow, b, hb, rfl⟩ := hx
  obtain ⟨r, hr, rfl⟩ := List.getElem_of_mem hrow
  obtain ⟨c, hc, rfl⟩ := List.getElem_of_mem hb
  simp only [Vector.length_toList, Vector.getElem_toList] at hr hc ⊢
  obtain hcell | hcell : d[r][c] = 0 ∨ d[r][c] = 1 := h d hd ⟨r, hr⟩ ⟨c, hc⟩
  · exact .inl (by rw [hcell]; rfl)
  · exact .inr (by rw [hcell]; rfl)

/-- A dark display and one with a lit diagonal, twice as large, in a palette whose dark colour is not black. -/
theorem frames_are_images_doubled :
    let displays : List Display := [.blank, .ofFn fun r c => if r.val = c.val then 1 else 0]
    let p : Palette := ⟨⟨255, 204, 0⟩, ⟨153, 102, 0⟩⟩
    (ofDisplays displays).shape = ⟨[2, 32, 64], false⟩ ∧
      (∀ x ∈ (ofDisplays displays).items, x = 0 ∨ x = 1) ∧ Palette.ofName "octo" = .ok p ∧
      ∃ e first second, (save (ofDisplays displays) (.text "out.mp4") (.int 60) (.int 2) "octo" false).1 =
          some e ∧ e.calls = [.write first, .write second, .release] ∧
        first.pixel? 63 63 = some ⟨0, 102, 153⟩ ∧ second.pixel? 63 63 = some ⟨0, 204, 255⟩ ∧
        second.pixel? 63 64 = some ⟨0, 102, 153⟩ := by
  intro displays p
  have hshape : (ofDisplays displays).shape = ⟨[2, 32, 64], false⟩ := shape_ofDisplays (List.cons_ne_nil _ _)
  have hdiagonal : Display.Binary (.ofFn fun r c => if r.val = c.val then 1 else 0) := by
    intro r c
    rw [Display.cell_ofFn]
    split
    · exact .inr rfl
    · exact .inl rfl
  have hbinary : ∀ x ∈ (ofDisplays displays).items, x = 0 ∨ x = 1 := by
    refine binary_ofDisplays (List.forall_mem_cons.mpr ⟨Display.binary_blank, ?_⟩)
    exact List.forall_mem_singleton.mpr hdiagonal
  have hp : Palette.ofName "octo" = .ok p := by decide
  obtain ⟨e, images, he, -, -, himages, hcalls⟩ :=
    frames_are_images hshape hbinary hp (.text "out.mp4") (.int 60) 2
  obtain ⟨first, others, hfirst, hothers, rfl⟩ := List.forall₂_cons_left_iff.mp himages
  obtain ⟨second, none, hsecond, hnone, rfl⟩ := List.forall₂_cons_left_iff.mp hothers
  obtain rfl := List.forall₂_nil_left_iff.mp hnone
  have hd := shape_of_mem hshape List.mem_cons_self
  have hd' := shape_of_mem hshape (List.mem_cons_of_mem _ List.mem_cons_self)
  refine ⟨hshape, hbinary, hp, e, _, _, he, hcalls, ?_, ?_, ?_⟩
  · exact pixel?_frame hd hfirst (i := 63) (j := 63) (x := 0) (by decide +kernel)
  · exact pixel?_frame hd' hsecond (i := 63) (j := 63) (x := 1) (by decide +kernel)
  · exact pixel?_frame hd' hsecond (i := 63) (j := 64) (x := 0) (by decide +kernel)

end Video

end Chip8
