import Chip8.Proofs.Invariant
import Chip8.Proofs.Plot

/-!
# How many cells are lit

A drawing takes the lit cells to their symmetric difference with the cells under the sprite's one bits.
No two one bits fall on the same cell and none falls off the torus, so the sizes can be counted: what a
sprite puts out is missing twice, once where it was and once where it would be.

* `litCells`   the cells that hold a one;
* `ones`       the number of one bits in a sprite;
* `struck`     the lit cells under a one bit of the sprite;
* `litCells_flip_mask`, `length_spots`, `card_symmDiff`   the three parts of the count;
* `draw_accounts_for_lit_cells`   the main statement.
-/

namespace Chip8.Display

/-- The cells that hold a one. -/
def litCells (d : Display) : Finset (Fin 32 × Fin 64) := {p | d.cell p.1 p.2 = 1}

/-- The number of one bits in a sprite. -/
def ones (sprite : List UInt8) : Nat :=
  (sprite.map fun bits => (List.finRange 8).countP (lit bits)).sum

/-- The lit cells on which a one bit of the sprite falls. -/
def struck (d : Display) (sprite : List UInt8) (x y : Int32) : Finset (Fin 32 × Fin 64) :=
  d.litCells ∩ (spots sprite x.toInt y.toInt).toFinset

@[simp] theorem mem_litCells {d : Display} {p : Fin 32 × Fin 64} :
    p ∈ d.litCells ↔ d.cell p.1 p.2 = 1 := by
  rw [litCells, Finset.mem_filter, and_iff_right (Finset.mem_univ p)]

theorem litCells_blank : blank.litCells = ∅ := by
  ext p
  rw [mem_litCells, cell_blank]
  simp

theorem mem_struck {d : Display} {sprite : List UInt8} {x y : Int32} {p : Fin 32 × Fin 64} :
    p ∈ d.struck sprite x y ↔ d.cell p.1 p.2 = 1 ∧ Covers sprite x.toInt y.toInt p := by
  rw [struck, Finset.mem_inter, mem_litCells, List.mem_toFinset, mem_spots]

/-! ### One bits and the cells under them -/

theorem ones_cons (bits : UInt8) (rows : List UInt8) :
    ones (bits :: rows) = (List.finRange 8).countP (lit bits) + ones rows := rfl

theorem length_pixelsFrom (i : Nat) (rows : List UInt8) : (pixelsFrom i rows).length = ones rows := by
  induction rows generalizing i with
  | nil => rfl
  | cons bits rows ih =>
    rw [pixelsFrom, List.length_append, List.length_map, ← List.countP_eq_length_filter, ih, ones_cons]

theorem length_spots (sprite : List UInt8) (x y : Int) : (spots sprite x y).length = ones sprite := by
  rw [spots, List.length_map, pixels, length_pixelsFrom]

/-- A sprite that is lower than the torus covers one cell for each of its one bits. -/
theorem card_spots {sprite : List UInt8} (hs : sprite.length ≤ 32) (x y : Int) :
    (spots sprite x y).toFinset.card = ones sprite := by
  rw [List.toFinset_card_of_nodup (nodup_spots hs x y), length_spots]

/-! ### The lit cells after a drawing -/

section
variable {d : Display} (hd : d.Binary) {sprite : List UInt8} (hs : sprite.length ≤ 32) (x y : Int32)
include hd

theorem Binary.isLit_iff {p : Fin 32 × Fin 64} : d.isLit p = true ↔ p ∈ d.litCells := by
  rw [Display.isLit_iff, mem_litCells]
  rcases hd p.1 p.2 with h | h
  · rw [h]
    decide
  · rw [h]
    decide

theorem Binary.xor_one_eq_one {p : Fin 32 × Fin 64} :
    d.cell p.1 p.2 ^^^ 1 = 1 ↔ p ∉ d.litCells := by
  rw [mem_litCells]
  rcases hd p.1 p.2 with h | h
  · rw [h]
    decide
  · rw [h]
    decide

include hs

theorem litCells_flip_mask : (d.flip (mask sprite x y)).litCells =
    symmDiff d.litCells (spots sprite x.toInt y.toInt).toFinset := by
  ext ⟨r, c⟩
  rw [mem_litCells, Finset.mem_symmDiff, List.mem_toFinset]
  show (d.flip (mask sprite x y)).cell r c = 1 ↔ _
  rw [cell_flip_mask hs]
  by_cases hp : (r, c) ∈ spots sprite x.toInt y.toInt
  · rw [if_pos hp, hd.xor_one_eq_one (p := (r, c))]
    simp [hp]
  · rw [if_neg hp]
    simp [hp]

theorem meets_mask_eq_false_iff : d.meets (mask sprite x y) = false ↔ d.struck sprite x y = ∅ := by
  rw [← Bool.not_eq_true, meets_mask_iff hs, Finset.eq_empty_iff_forall_notMem]
  constructor
  · intro h p hp
    obtain ⟨hlit, hcov⟩ := mem_struck.mp hp
    exact h ⟨p, mem_spots.mpr hcov, hd.isLit_iff.mpr (mem_litCells.mpr hlit)⟩
  · rintro h ⟨p, hp, hlit⟩
    exact h p (mem_struck.mpr ⟨mem_litCells.mp (hd.isLit_iff.mp hlit), mem_spots.mp hp⟩)

omit hd in
/-- A cell goes out exactly if it is lit and a one bit falls on it. -/
theorem mem_struck_iff_put_out {r : Fin 32} {c : Fin 64} : (r, c) ∈ d.struck sprite x y ↔
    d.cell r c = 1 ∧ (d.flip (mask sprite x y)).cell r c = 0 := by
  rw [mem_struck, cell_flip_mask hs, ← mem_spots]
  refine and_congr_right fun h => ?_
  have hlit : d.cell r c = 1 := h
  split
  · rename_i hp
    simp [hp, hlit]
  · rename_i hp
    simp [hp, hlit]

end

/-- What two sets share is missing from their symmetric difference twice. -/
theorem card_symmDiff {α : Type} [DecidableEq α] (a b : Finset α) :
    (symmDiff a b).card + 2 * (a ∩ b).card = a.card + b.card := by
  have hdisj : Disjoint (a \ b) (b \ a) := disjoint_sdiff_sdiff
  have hsymm : (symmDiff a b).card = (a \ b).card + (b \ a).card :=
    Finset.card_union_of_disjoint hdisj
  have ha : (a \ b).card + (a ∩ b).card = a.card := Finset.card_sdiff_add_card_inter a b
  have hb : (b \ a).card + (b ∩ a).card = b.card := Finset.card_sdiff_add_card_inter b a
  rw [Finset.inter_comm] at hb
  omega

/-- **A collision accounts for every pixel that goes out**: the lit cells after a drawing and twice those that
were struck are as many as the lit cells before and the one bits of the sprite. -/
theorem draw_accounts_for_lit_cells (d : Display) (hd : d.Binary) (sprite : List UInt8)
    (hs : 1 ≤ sprite.length ∧ sprite.length ≤ 15) (x y : Int32) :
    ∃ e hit, d.draw sprite x y = .ok (e, hit) ∧ e.Binary ∧
      e.litCells.card + 2 * (d.struck sprite x y).card = d.litCells.card + ones sprite ∧
      (hit = false ↔ e.litCells.card = d.litCells.card + ones sprite) ∧
      (hit = false ↔ ∀ r c, ¬ (d.cell r c = 1 ∧ e.cell r c = 0)) := by
  have hle : sprite.length ≤ 32 := by omega
  have hcount : (d.flip (mask sprite x y)).litCells.card +
      2 * (d.struck sprite x y).card = d.litCells.card + ones sprite := by
    rw [litCells_flip_mask hd hle, struck, card_symmDiff, card_spots hle]
  have hmiss := meets_mask_eq_false_iff hd hle x y
  refine ⟨_, _, draw_eq_ok d x y hs, hd.flip (binary_mask sprite _ _), hcount, ?_, ?_⟩
  · rw [hmiss, ← Finset.card_eq_zero]
    omega
  · rw [hmiss, Finset.eq_empty_iff_forall_notMem]
    constructor
    · intro h r c hout
      exact h (r, c) ((mem_struck_iff_put_out hle ..).mpr hout)
    · rintro h ⟨r, c⟩ hp
      exact h r c ((mem_struck_iff_put_out hle ..).mp hp)

/-- Over the corner of the torus, from the smallest row and the largest column that a 32-bit word holds:
one of the three one bits falls on the one lit cell. -/
theorem draw_accounts_for_lit_cells_corner :
    let d := blank.flip (mask [0x80] 63 0)
    let sprite : List UInt8 := [0xC0, 0x01]
    d.Binary ∧ (1 ≤ sprite.length ∧ sprite.length ≤ 15) ∧ d.litCells.card = 1 ∧ ones sprite = 3 ∧
      ∃ e, d.draw sprite 2147483647 (-2147483648) = .ok (e, true) ∧
        e.litCells.card = 2 := by
  intro d sprite
  have hd : d.Binary := binary_blank.flip (binary_mask _ _ _)
  have hs : 1 ≤ sprite.length ∧ sprite.length ≤ 15 := by decide
  have hcells : d.litCells = (spots [0x80] 63 0).toFinset := by
    rw [litCells_flip_mask binary_blank (by decide), litCells_blank]
    exact bot_symmDiff _
  have hlit : d.litCells.card = 1 := by
    rw [hcells]
    decide +kernel
  have hones : ones sprite = 3 := by decide
  have hstruck : (d.struck sprite 2147483647 (-2147483648)).card = 1 := by
    rw [struck, hcells]
    decide +kernel
  obtain ⟨e, hit, hdraw, -, hcount, hiff, -⟩ :=
    draw_accounts_for_lit_cells d hd sprite hs 2147483647 (-2147483648)
  have hcard : e.litCells.card = 2 := by omega
  have hhit : hit = true := by
    rw [← Bool.not_eq_false, hiff]
    omega
  exact ⟨hd, hs, hlit, hones, e, hhit ▸ hdraw, hcard⟩

end Chip8.Display
