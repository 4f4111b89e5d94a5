import Chip8.Proofs.Pixels
import Chip8.Video

/-!
# The size of the frames of a video

An encoder is opened with the size of the display times the scale.  The frames that it gets have the size
of the display times the scale too, but a scale below one does not make them smaller.

* `cells_of_shape`        displays as grids of cells;
* `grid_levels`           the brightness of each frame, with persistence or without, is such a grid again;
* `sized_picture`         the size of the image that is encoded;
* `save_eq`               what the encoder of displays was opened with, and what it got;
* `Encoder.Takes e i`     the image has the size that the encoder was opened with;
* `encoder_takes_frames`  the main statement; `encoder_misses_frame` is a frame of another size.
-/

namespace Chip8.Video

/-- The image has the size that the encoder was opened with, and so have its rows. -/
def Encoder.Takes (e : Encoder) (i : Image Bgr) : Prop :=
  e.width = .int i.width ∧ e.height = .int i.height ∧ ∀ row ∈ i.rows, row.length = i.width

variable {w h n : Nat} {frames : Nested Int}

/-! ### Displays -/

section
variable {displays : List (Nested Int)} (hshape : (Nested.list displays).shape = ⟨[n, 32, 64], false⟩)
include hshape

/-- The displays of regular frames are regular literals of their own. -/
theorem shape_of_mem {d : Nested Int} (hd : d ∈ displays) : d.shape = ⟨[32, 64], false⟩ :=
  Nested.shapeWithin_succ ((Nested.members_of_shape hshape).2 d hd)

theorem cells_list : cells (.list displays) = .ok (displays.map Nested.rows) := by
  simp only [cells, hshape]
  rfl

end

/-- Displays of the right shape are grids of cells, and there is one at least. -/
theorem cells_of_shape (hshape : frames.shape = ⟨[n, 32, 64], false⟩) :
    ∃ grids, cells frames = .ok grids ∧ grids.length = n ∧ 0 < n ∧ ∀ g ∈ grids, Grid 64 32 g := by
  obtain ⟨displays, rfl⟩ := Nested.exists_list_of_shape hshape
  obtain ⟨hlength, -⟩ := Nested.members_of_shape hshape
  refine ⟨_, cells_list hshape, (List.length_map _).trans hlength, Nested.pos_of_shape hshape,
    fun g hg => ?_⟩
  obtain ⟨d, hd, rfl⟩ := List.mem_map.mp hg
  exact Image.grid_rows (shape_of_mem hshape hd)

/-- Displays that were recorded have the right shape. -/
theorem shape_ofDisplays {displays : List Display} (h : displays ≠ []) :
    (ofDisplays displays).shape = ⟨[displays.length, 32, 64], false⟩ := by
  have hcell (b : UInt8) : Nested.shapeWithin 61 (.item (b.toNat : Int)) = ⟨[], false⟩ := by
    rw [Nested.shapeWithin]
  have hrow (row : Vector UInt8 64) :
      Nested.shapeWithin 62 (.list (row.toList.map fun b => .item (b.toNat : Int))) =
        ⟨[64], false⟩ := by
    have hne : row.toList ≠ [] := List.ne_nil_of_length_pos (by simp)
    rw [Nested.shape_map hne fun b _ => hcell b, Vector.length_toList]
  refine Nested.shape_map h fun d _ => ?_
  have hne : d.toList ≠ [] := List.ne_nil_of_length_pos (by simp)
  rw [Nested.shape_map hne fun row _ => hrow row, Vector.length_toList]

/-! ### Brightness -/

theorem grid_dark : Grid 64 32 dark := Grid.replicate 0

/-- The brightness after one frame. -/
theorem grid_next (persistence : Bool) {before : Levels} {frame : List (List Int)}
    (hbefore : Grid w h before) (hframe : Grid w h frame) :
    Grid w h (if persistence then List.zipWith (List.zipWith glow) before frame
      else frame.map (·.map Float32.ofInt)) := by
  cases persistence with
  | true => exact hbefore.zipWith hframe glow
  | false => exact hframe.map Float32.ofInt

theorem grid_levels (persistence : Bool) {before : Levels} {frames : List (List (List Int))}
    (hbefore : Grid w h before) (hframes : ∀ f ∈ frames, Grid w h f) :
    ∀ l ∈ levels persistence before frames, Grid w h l := by
  induction frames generalizing before with
  | nil => exact List.forall_mem_nil _
  | cons frame frames ih =>
    have hnext := grid_next persistence hbefore (hframes frame List.mem_cons_self)
    rw [levels]
    exact List.forall_mem_cons.mpr
      ⟨hnext, ih hnext fun f hf => hframes f (List.mem_cons_of_mem _ hf)⟩

/-! ### Images and their encoder -/

theorem sized_picture (p : Palette) (scale : Int) {l : Levels} (hl : Grid 64 32 l) :
    (picture p scale l).Sized (64 * (max 1 scale).toNat) (32 * (max 1 scale).toNat) := by
  have hcolored : Image.Sized 64 32 ⟨Display.width, l.map (·.map fun x => (shade p x).bgr)⟩ :=
    ⟨rfl, hl.map _⟩
  exact hcolored.scale scale

namespace Encoder
variable {filename : Value} {scale : Int} {p : Palette} {persistence : Bool}
  {grids : List (List (List Int))}

theorem sized_frames (hgrids : ∀ g ∈ grids, Grid 64 32 g) :
    ∀ i ∈ (ofFrames filename scale p persistence grids).frames,
      i.Sized (64 * (max 1 scale).toNat) (32 * (max 1 scale).toNat) := by
  intro i hi
  rw [frames_ofFrames] at hi
  obtain ⟨l, hl, rfl⟩ := List.mem_map.mp hi
  exact sized_picture p scale (grid_levels persistence grid_dark hgrids l hl)

/-- The sizes agree exactly for the scales that are not below one. -/
theorem takes_iff {i : Image Bgr}
    (hi : i.Sized (64 * (max 1 scale).toNat) (32 * (max 1 scale).toNat)) :
    (ofFrames filename scale p persistence grids).Takes i ↔ 1 ≤ scale := by
  have hwidth : (ofFrames filename scale p persistence grids).width = .int (64 * scale) := rfl
  have hheight : (ofFrames filename scale p persistence grids).height = .int (32 * scale) := rfl
  rw [Takes, hwidth, hheight, hi.height, hi.width, Value.int.injEq, Value.int.injEq]
  constructor
  · rintro ⟨h, -, -⟩
    omega
  · intro h
    exact ⟨by omega, by omega, hi.grid.width⟩

end Encoder

/-- The encoder of grids of cells, if the palette is known and the scale is a number. -/
theorem save_eq {grids : List (List (List Int))} (hcells : cells frames = .ok grids) {scheme : String}
    {p : Palette} (hp : Palette.ofName scheme = .ok p) (filename rate : Value) (scale : Int)
    (persistence : Bool) : (save frames filename rate (.int scale) scheme persistence).1 =
      some (.ofFrames filename scale p persistence grids) := by
  rw [save, hcells, hp]
  rfl

/-- **The frames of a video have the size that its encoder was opened with, unless the scale is below one**,
and then none of them has it. -/
theorem encoder_takes_frames (hshape : frames.shape = ⟨[n, 32, 64], false⟩) {scheme : String}
    (hscheme : scheme ∈ Palette.named.map Prod.fst) (filename rate : Value) (scale : Int)
    (persistence : Bool) : 0 < n ∧
      ∃ e, (save frames filename rate (.int scale) scheme persistence).1 = some e ∧
        e.width = .int (64 * scale) ∧ e.height = .int (32 * scale) ∧ e.frames.length = n ∧
        ∀ i ∈ e.frames, i.Sized (64 * (max 1 scale).toNat) (32 * (max 1 scale).toNat) ∧
          (e.Takes i ↔ 1 ≤ scale) := by
  obtain ⟨grids, hcells, hlength, hpos, hgrids⟩ := cells_of_shape hshape
  obtain ⟨p, hp⟩ := (Palette.ofName_isOk_iff scheme).mpr hscheme
  refine ⟨hpos, _, save_eq hcells hp filename rate scale persistence, rfl, rfl, ?_, fun i hi => ?_⟩
  · rw [Encoder.length_frames, hlength]
  · have hsized := Encoder.sized_frames hgrids i hi
    exact ⟨hsized, Encoder.takes_iff hsized⟩

/-- A dark display and a lit one, three times as large. -/
theorem encoder_takes_frames_tripled :
    let displays := [Display.blank, Display.ofFn fun _ _ => 1]
    (ofDisplays displays).shape = ⟨[2, 32, 64], false⟩ ∧ "octo" ∈ Palette.named.map Prod.fst ∧
      ∃ e, (save (ofDisplays displays) (.text "out.mp4") (.int 60) (.int 3) "octo" true).1 = some e ∧
        e.width = .int 192 ∧ e.height = .int 96 ∧ e.frames.length = 2 ∧ ∀ i ∈ e.frames, e.Takes i := by
  intro displays
  have hshape : (ofDisplays displays).shape = ⟨[2, 32, 64], false⟩ :=
    shape_ofDisplays (List.cons_ne_nil _ _)
  have hscheme : "octo" ∈ Palette.named.map Prod.fst := by decide
  obtain ⟨-, e, he, hwidth, hheight, hlength, hframes⟩ :=
    encoder_takes_frames hshape hscheme (.text "out.mp4") (.int 60) 3 true
  exact ⟨hshape, hscheme, e, he, hwidth, hheight, hlength, fun i hi => (hframes i hi).2.mpr (by decide)⟩

/-- With a scale of zero the encoder is opened for an empty image and gets one of the size of the display. -/
theorem encoder_misses_frame :
    ∃ e, (save (ofDisplays [.blank]) (.text "out.mp4") (.int 60) (.int 0) "classic" true).1 = some e ∧
      e.width = .int 0 ∧ e.height = .int 0 ∧
      ∃ i ∈ e.frames, i.width = 64 ∧ i.height = 32 ∧ ¬ e.Takes i := by
  have hshape : (ofDisplays [.blank]).shape = ⟨[1, 32, 64], false⟩ :=
    shape_ofDisplays (List.cons_ne_nil _ _)
  obtain ⟨grids, hcells, hlength, hpos, hgrids⟩ := cells_of_shape hshape
  obtain ⟨p, hp⟩ := (Palette.ofName_isOk_iff "classic").mpr (by decide)
  have hframes := Encoder.length_frames (.text "out.mp4") 0 p true grids
  obtain ⟨i, hi⟩ := List.exists_mem_of_length_pos (by rw [hframes, hlength]; exact hpos)
  have hsized := Encoder.sized_frames hgrids i hi
  refine ⟨_, save_eq hcells hp _ _ 0 true, rfl, rfl, i, hi, hsized.width, hsized.height, ?_⟩
  rw [Encoder.takes_iff hsized]
  decide

end Chip8.Video
