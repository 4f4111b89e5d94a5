import Chip8.Proofs.Perform
import Mathlib

/-!
# Sprites, pixel by pixel

A drawing asks every cell of the display for its place in the sprite.  The plain way goes the other
way round: row by row and column by column through the sprite, it flips the cell under each lit pixel.

* `Display.spot`     the cell that a pixel of the sprite falls on;
* `Display.plot`     the plain nested loop, which also notes whether a lit cell was flipped;
* `Display.pixels`   the lit pixels of a sprite, in the order of the loop.

No two pixels of a sprite fall on the same cell, because a sprite is narrower and lower than the
torus.  So the order of the loop plays no part, and both ways agree: `draw_eq_plot`.
-/

namespace Chip8.Display

/-- The pixel in a column of a sprite row is lit; the most significant bit is the leftmost. -/
def lit (bits : UInt8) (j : Fin 8) : Bool := bits.toNat.testBit (7 - j)

/-- The cell under the pixel in row `i` and column `j` of a sprite with its corner in column `x` and
row `y`. -/
def spot (x y : Int) (i : Nat) (j : Fin 8) : Fin 32 × Fin 64 :=
  (⟨((y + i) % 32).toNat, by omega⟩, ⟨((x + j) % 64).toNat, by omega⟩)

/-- The lowest bit of a cell is set. -/
def isLit (d : Display) (p : Fin 32 × Fin 64) : Bool := d.cell p.1 p.2 &&& 1 != 0

theorem isLit_iff {d : Display} {p : Fin 32 × Fin 64} :
    d.isLit p = true ↔ d.cell p.1 p.2 &&& 1 = 1 := by
  have h := Number.toNat_and_one (d.cell p.1 p.2)
  rw [isLit, bne_iff_ne, ne_eq, ← UInt8.toNat_inj, ← UInt8.toNat_inj, h]
  show ¬ _ = 0 ↔ _ = 1
  omega

/-- The display with the lowest bit of one cell flipped. -/
def flipAt (d : Display) (p : Fin 32 × Fin 64) : Display :=
  d.set p.1 (d[p.1].set p.2 (d.cell p.1 p.2 ^^^ 1))

/-- Flip a cell, and note whether it was lit. -/
def mark (s : Display × Bool) (p : Fin 32 × Fin 64) : Display × Bool :=
  (s.1.flipAt p, s.2 || s.1.isLit p)

/-- One row of the sprite, from left to right. -/
def plotRow (x y : Int) (i : Nat) (bits : UInt8) (s : Display × Bool) : Display × Bool :=
  (List.finRange 8).foldl (fun s j => if lit bits j then mark s (spot x y i j) else s) s

/-- The rows of a sprite from row `i` on, from top to bottom. -/
def plotRows (x y : Int) : (i : Nat) → List UInt8 → Display × Bool → Display × Bool
  | _, [], s => s
  | i, bits :: rows, s => plotRows x y (i + 1) rows (plotRow x y i bits s)

def plot (d : Display) (sprite : List UInt8) (x y : Int) : Display × Bool :=
  plotRows x y 0 sprite (d, false)

/-! ### The lit pixels -/

/-- The lit pixels of the rows of a sprite, the first of which is row `i`. -/
def pixelsFrom : (i : Nat) → List UInt8 → List (Nat × Fin 8)
  | _, [] => []
  | i, bits :: rows => ((List.finRange 8).filter (lit bits)).map (i, ·) ++ pixelsFrom (i + 1) rows

def pixels (sprite : List UInt8) : List (Nat × Fin 8) := pixelsFrom 0 sprite

theorem mem_pixelsFrom {i : Nat} {rows : List UInt8} {k : Nat} {j : Fin 8} :
    (k, j) ∈ pixelsFrom i rows ↔ i ≤ k ∧ ∃ bits, rows[k - i]? = some bits ∧ lit bits j = true := by
  induction rows generalizing i with
  | nil => simp [pixelsFrom]
  | cons bits rows ih =>
    have hrow : (k, j) ∈ ((List.finRange 8).filter (lit bits)).map (i, ·) ↔
        k = i ∧ lit bits j = true := by
      rw [List.mem_map]
      constructor
      · rintro ⟨l, hl, h⟩
        obtain ⟨rfl, rfl⟩ := Prod.mk.inj h
        exact ⟨rfl, (List.mem_filter.mp hl).2⟩
      · rintro ⟨rfl, hj⟩
        exact ⟨j, List.mem_filter.mpr ⟨List.mem_finRange j, hj⟩, rfl⟩
    rw [pixelsFrom, List.mem_append, hrow, ih]
    by_cases hk : k = i
    · subst hk
      have hlt : ¬ k + 1 ≤ k := by omega
      simp [hlt]
    · have hs : i < k → k - i = k - (i + 1) + 1 := by omega
      constructor
      · rintro (⟨h, -⟩ | ⟨h, b, hb, hj⟩)
        · exact absurd h hk
        · refine ⟨by omega, b, ?_, hj⟩
          rw [hs (by omega), List.getElem?_cons_succ]
          exact hb
      · rintro ⟨h, b, hb, hj⟩
        refine .inr ⟨by omega, b, ?_, hj⟩
        rw [hs (by omega), List.getElem?_cons_succ] at hb
        exact hb

theorem mem_pixels {sprite : List UInt8} {k : Nat} {j : Fin 8} :
    (k, j) ∈ pixels sprite ↔ ∃ bits, sprite[k]? = some bits ∧ lit bits j = true := by
  rw [pixels, mem_pixelsFrom]
  simp

theorem nodup_pixelsFrom (i : Nat) (rows : List UInt8) : (pixelsFrom i rows).Nodup := by
  induction rows generalizing i with
  | nil => exact List.nodup_nil
  | cons bits rows ih =>
    rw [pixelsFrom, List.nodup_append]
    refine ⟨?_, ih (i + 1), ?_⟩
    · exact List.Nodup.map (Prod.mk_right_injective i) ((List.nodup_finRange 8).filter _)
    · rintro ⟨a, ja⟩ ha ⟨b, jb⟩ hb h
      obtain ⟨j, -, hj⟩ := List.mem_map.mp ha
      have h1 : i = a := (Prod.mk.inj hj).1
      have h2 : i + 1 ≤ b := (mem_pixelsFrom.mp hb).1
      have h3 : a = b := (Prod.mk.inj h).1
      omega

/-! ### The cells under a sprite -/

/-- Two pixels of one sprite fall on different cells. -/
theorem spot_inj {x y : Int} {i k : Nat} {j l : Fin 8} (hi : i < 32) (hk : k < 32)
    (h : spot x y i j = spot x y k l) : i = k ∧ j = l := by
  have hr : ((y + i) % 32).toNat = ((y + k) % 32).toNat := congrArg (fun p => p.1.val) h
  have hc : ((x + j) % 64).toNat = ((x + l) % 64).toNat := congrArg (fun p => p.2.val) h
  exact ⟨by omega, Fin.ext (by omega)⟩

/-- The cells under the lit pixels. -/
def spots (sprite : List UInt8) (x y : Int) : List (Fin 32 × Fin 64) :=
  (pixels sprite).map fun p => spot x y p.1 p.2

/-- Some lit pixel of the sprite falls on the cell. -/
def Covers (sprite : List UInt8) (x y : Int) (p : Fin 32 × Fin 64) : Prop :=
  ∃ i j bits, sprite[i]? = some bits ∧ lit bits j = true ∧ spot x y i j = p

theorem mem_spots {sprite : List UInt8} {x y : Int} {p : Fin 32 × Fin 64} :
    p ∈ spots sprite x y ↔ Covers sprite x y p := by
  rw [spots, List.mem_map]
  constructor
  · rintro ⟨⟨i, j⟩, h, rfl⟩
    obtain ⟨bits, hb, hj⟩ := mem_pixels.mp h
    exact ⟨i, j, bits, hb, hj, rfl⟩
  · rintro ⟨i, j, bits, hb, hj, rfl⟩
    exact ⟨(i, j), mem_pixels.mpr ⟨bits, hb, hj⟩, rfl⟩

theorem nodup_spots {sprite : List UInt8} (h : sprite.length ≤ 32) (x y : Int) :
    (spots sprite x y).Nodup := by
  refine List.Nodup.map_on ?_ (nodup_pixelsFrom 0 sprite)
  rintro ⟨i, j⟩ hi ⟨k, l⟩ hk e
  obtain ⟨b, hb, -⟩ := mem_pixels.mp hi
  obtain ⟨c, hc, -⟩ := mem_pixels.mp hk
  have hi' := (List.getElem?_eq_some_iff.mp hb).1
  have hk' := (List.getElem?_eq_some_iff.mp hc).1
  obtain ⟨rfl, rfl⟩ := spot_inj (by omega) (by omega) e
  rfl

/-! ### The loop goes through the cells under the lit pixels -/

theorem plotRow_eq (x y : Int) (i : Nat) (bits : UInt8) (s : Display × Bool) :
    plotRow x y i bits s =
      ((((List.finRange 8).filter (lit bits)).map (i, ·)).map fun p => spot x y p.1 p.2).foldl
        mark s := by
  rw [List.foldl_map, List.foldl_map, List.foldl_filter]
  rfl

theorem plotRows_eq (x y : Int) (i : Nat) (rows : List UInt8) (s : Display × Bool) :
    plotRows x y i rows s = ((pixelsFrom i rows).map fun p => spot x y p.1 p.2).foldl mark s := by
  induction rows generalizing i s with
  | nil => rfl
  | cons bits rows ih =>
    rw [plotRows, ih, plotRow_eq, pixelsFrom, List.map_append, List.foldl_append]

theorem plot_eq (d : Display) (sprite : List UInt8) (x y : Int) :
    d.plot sprite x y = (spots sprite x y).foldl mark (d, false) :=
  plotRows_eq x y 0 sprite (d, false)

/-! ### What a number of flips comes to -/

theorem cell_flipAt (d : Display) (p q : Fin 32 × Fin 64) :
    (d.flipAt p).cell q.1 q.2 = if p = q then d.cell q.1 q.2 ^^^ 1 else d.cell q.1 q.2 := by
  obtain ⟨r, c⟩ := p
  obtain ⟨r', c'⟩ := q
  have hset : (d.flipAt (r, c)).cell r' c' =
      (if r.val = r'.val then d[r].set c (d.cell r c ^^^ 1) else d[r'])[c'] :=
    congrArg (fun row : Vector UInt8 64 => row[c']) (Vector.getElem_set r.2 r'.2)
  rw [hset]
  by_cases hr : r = r'
  · subst hr
    rw [if_pos rfl]
    refine (Vector.getElem_set c.2 c'.2).trans ?_
    by_cases hc : c = c'
    · subst hc
      rw [if_pos rfl, if_pos rfl]
    · rw [if_neg (fun h => hc (Fin.ext h)), if_neg (fun h => hc (Prod.mk.inj h).2)]
      rfl
  · rw [if_neg (fun h => hr (Fin.ext h)), if_neg (fun h => hr (Prod.mk.inj h).1)]
    rfl

/-- Flips of different cells do not meet each other: each cell is flipped at most once, and was lit
before if it was lit at all. -/
theorem foldl_mark {ps : List (Fin 32 × Fin 64)} (h : ps.Nodup) (d : Display) (b : Bool) :
    (∀ q, (ps.foldl mark (d, b)).1.cell q.1 q.2 =
      if q ∈ ps then d.cell q.1 q.2 ^^^ 1 else d.cell q.1 q.2) ∧
    (ps.foldl mark (d, b)).2 = (b || ps.any d.isLit) := by
  induction ps generalizing d b with
  | nil => simp
  | cons p ps ih =>
    obtain ⟨hp, hps⟩ := List.nodup_cons.mp h
    obtain ⟨hcell, hflag⟩ := ih hps (d.flipAt p) (b || d.isLit p)
    have hstep : (p :: ps).foldl mark (d, b) = ps.foldl mark (d.flipAt p, b || d.isLit p) := rfl
    have hne : ∀ q ∈ ps, p ≠ q := fun q hq e => hp (e ▸ hq)
    refine ⟨fun q => ?_, ?_⟩
    · rw [hstep, hcell, cell_flipAt]
      by_cases hq : q ∈ ps
      · rw [if_pos hq, if_neg (hne q hq), if_pos (List.mem_cons_of_mem p hq)]
      · rw [if_neg hq]
        by_cases hpq : p = q
        · rw [if_pos hpq, if_pos (hpq ▸ List.mem_cons_self)]
        · rw [if_neg hpq, if_neg]
          exact fun hm => (List.mem_cons.mp hm).elim (fun e => hpq e.symm) hq
    · have hrest : ps.any (d.flipAt p).isLit = ps.any d.isLit := by
        rw [List.any_eq, List.any_eq]
        refine decide_eq_decide.mpr (exists_congr fun q => and_congr_right fun hq => ?_)
        rw [isLit, isLit, cell_flipAt, if_neg (hne q hq)]
      rw [hstep, hflag, hrest, List.any_cons, Bool.or_assoc]

/-! ### What a sprite holds over a cell -/

/-- The wrap of the 32-bit difference is undone by the remainder. -/
theorem offset_eq {n : Nat} (hn : n ∣ 2 ^ 32) (cell : Nat) (corner : Int32) :
    offset n cell corner = (((cell : Int) - corner.toInt) % n).toNat := by
  have hz : (n : Int) ∣ ((2 ^ 32 : Nat) : Int) := Int.natCast_dvd_natCast.mpr hn
  have hmod (a : Int) : a.bmod (2 ^ 32) % n = a % n := by
    rw [← Int.emod_emod_of_dvd _ hz, Int.bmod_emod, Int.emod_emod_of_dvd _ hz]
  rw [offset, Int32.toInt_sub, hmod, Int.sub_emod, Int32.toInt_ofNat']
  rw [show Int32.size = 2 ^ 32 from rfl, hmod, ← Int.sub_emod]

theorem spritePixel_eq (bits : UInt8) (j : Fin 8) :
    spritePixel bits j = if lit bits j then 1 else 0 := by
  have hj : ∀ j : Fin 8, (7 - UInt8.ofNat j.val).toNat % 8 = 7 - j.val := by decide
  have h : (spritePixel bits j).toNat = bits.toNat / 2 ^ (7 - j.val) % 2 := by
    rw [spritePixel, Number.toNat_and_one, UInt8.toNat_shiftRight, hj, Nat.shiftRight_eq_div_pow]
  apply UInt8.toNat_inj.mp
  rw [h, lit, Nat.testBit_eq_decide_div_mod_eq]
  rcases Nat.mod_two_eq_zero_or_one (bits.toNat / 2 ^ (7 - j.val)) with h0 | h1
  · simp [h0]
  · simp [h1]

/-- A pixel falls on a cell exactly if the cell's offsets are its place in the sprite. -/
theorem spot_eq_iff {x y : Int32} {i : Nat} (hi : i < 32) {j : Fin 8} {r : Fin 32} {c : Fin 64} :
    spot x.toInt y.toInt i j = (r, c) ↔ offset height r y = i ∧ offset width c x = j := by
  have hrow : offset height r y = ((r - y.toInt) % 32).toNat := offset_eq (by decide) _ _
  have hcol : offset width c x = ((c - x.toInt) % 64).toNat := offset_eq (by decide) _ _
  rw [hrow, hcol, spot, Prod.mk.injEq, Fin.ext_iff, Fin.ext_iff]
  dsimp only
  omega

theorem mem_spots_iff {sprite : List UInt8} (hs : sprite.length ≤ 32) {x y : Int32} {r : Fin 32}
    {c : Fin 64} : (r, c) ∈ spots sprite x.toInt y.toInt ↔
      ∃ bits, sprite[offset height r y]? = some bits ∧
        ∃ h : offset width c x < 8, lit bits ⟨offset width c x, h⟩ = true := by
  rw [mem_spots]
  constructor
  · rintro ⟨i, j, bits, hb, hj, hp⟩
    have hi := (List.getElem?_eq_some_iff.mp hb).1
    obtain ⟨hr, hc⟩ := (spot_eq_iff (by omega)).mp hp
    refine ⟨bits, hr ▸ hb, hc ▸ j.2, ?_⟩
    rw [show (⟨offset width c x, hc ▸ j.2⟩ : Fin 8) = j from Fin.ext hc]
    exact hj
  · rintro ⟨bits, hb, h, hj⟩
    have hi := (List.getElem?_eq_some_iff.mp hb).1
    exact ⟨_, _, bits, hb, hj, (spot_eq_iff (by omega)).mpr ⟨rfl, rfl⟩⟩

/-- A sprite holds a one exactly over the cells under its lit pixels. -/
theorem spriteAt_eq {sprite : List UInt8} (hs : sprite.length ≤ 32) (x y : Int32) (r : Fin 32)
    (c : Fin 64) :
    spriteAt sprite x y r c = if (r, c) ∈ spots sprite x.toInt y.toInt then 1 else 0 := by
  rw [spriteAt]
  by_cases hin : offset height r y < sprite.length ∧ offset width c x < 8
  · obtain ⟨hi, hj⟩ := hin
    have hmin : min (offset height r y) (sprite.length - 1) = offset height r y := by omega
    have hcol : (⟨min (offset width c x) 7, by omega⟩ : Fin 8) = ⟨offset width c x, hj⟩ :=
      Fin.ext (Nat.min_eq_left (by omega))
    have hbits : sprite[offset height r y]? = some sprite[offset height r y] :=
      List.getElem?_eq_getElem hi
    have hmem : (r, c) ∈ spots sprite x.toInt y.toInt ↔
        lit sprite[offset height r y] ⟨offset width c x, hj⟩ = true := by
      rw [mem_spots_iff hs, hbits]
      simp [hj]
    rw [if_pos ⟨hi, hj⟩, hmin, hcol, List.getD_eq_getElem?_getD, hbits, Option.getD_some,
      spritePixel_eq]
    simp only [hmem]
  · rw [if_neg hin, if_neg]
    intro hm
    obtain ⟨bits, hb, hj, -⟩ := (mem_spots_iff hs).mp hm
    exact hin ⟨(List.getElem?_eq_some_iff.mp hb).1, hj⟩

/-! ### Drawing is plotting -/

section
variable {d : Display} {sprite : List UInt8} (hs : sprite.length ≤ 32) (x y : Int32)
include hs

theorem cell_flip_mask (r : Fin 32) (c : Fin 64) : (d.flip (mask sprite x y)).cell r c =
    if (r, c) ∈ spots sprite x.toInt y.toInt then d.cell r c ^^^ 1 else d.cell r c := by
  rw [cell_flip, mask, cell_ofFn, spriteAt_eq hs]
  split
  · rfl
  · exact UInt8.xor_zero

theorem meets_mask_iff : d.meets (mask sprite x y) = true ↔
    ∃ p ∈ spots sprite x.toInt y.toInt, d.isLit p = true := by
  rw [meets_iff]
  constructor
  · rintro ⟨r, c, h⟩
    rw [mask, cell_ofFn, spriteAt_eq hs] at h
    split at h
    · rename_i hm
      exact ⟨(r, c), hm, bne_iff_ne.mpr h⟩
    · exact absurd UInt8.and_zero h
  · rintro ⟨p, hm, h⟩
    refine ⟨p.1, p.2, ?_⟩
    rw [mask, cell_ofFn, spriteAt_eq hs, if_pos hm]
    exact bne_iff_ne.mp h

theorem flip_mask_eq_plot :
    (d.flip (mask sprite x y), d.meets (mask sprite x y)) = d.plot sprite x.toInt y.toInt := by
  obtain ⟨hcell, hflag⟩ := foldl_mark (nodup_spots hs x.toInt y.toInt) d false
  rw [plot_eq]
  refine Prod.ext ?_ ?_
  · refine ext_cell fun r c => ?_
    rw [cell_flip_mask hs]
    exact (hcell (r, c)).symm
  · rw [hflag, Bool.false_or, Bool.eq_iff_iff, meets_mask_iff hs, List.any_eq_true]

end

/-- **Drawing is plotting.**  At any 32-bit coordinates, those whose differences wrap included, a sprite is
drawn as the nested loop over its rows and columns draws it, unless it has no rows or more than fifteen. -/
theorem draw_eq_plot (d : Display) (sprite : List UInt8) (x y : Int32) :
    (1 ≤ sprite.length ∧ sprite.length ≤ 15 →
      d.draw sprite x y = .ok (d.plot sprite x.toInt y.toInt) ∧
      ∃ e hit, d.draw sprite x y = .ok (e, hit) ∧
        (∀ r c, Covers sprite x.toInt y.toInt (r, c) → e.cell r c = d.cell r c ^^^ 1) ∧
        (∀ r c, ¬ Covers sprite x.toInt y.toInt (r, c) → e.cell r c = d.cell r c) ∧
        (hit = true ↔ ∃ r c, Covers sprite x.toInt y.toInt (r, c) ∧ d.cell r c &&& 1 = 1)) ∧
    (¬ (1 ≤ sprite.length ∧ sprite.length ≤ 15) →
      d.draw sprite x y = .error (.spriteHeight sprite.length)) := by
  refine ⟨fun h => ?_, fun h => ?_⟩
  · have hs : sprite.length ≤ 32 := by omega
    have hdraw := draw_eq_ok d x y h
    refine ⟨by rw [hdraw, flip_mask_eq_plot hs], _, _, hdraw, fun r c hc => ?_, fun r c hc => ?_, ?_⟩
    · rw [cell_flip_mask hs, if_pos (mem_spots.mpr hc)]
    · rw [cell_flip_mask hs, if_neg fun hm => hc (mem_spots.mp hm)]
    · rw [meets_mask_iff hs]
      constructor
      · rintro ⟨p, hp, hl⟩
        exact ⟨p.1, p.2, mem_spots.mp hp, isLit_iff.mp hl⟩
      · rintro ⟨r, c, hc, hl⟩
        exact ⟨(r, c), mem_spots.mpr hc, isLit_iff.mpr hl⟩
  · have hout : sprite.length < minSpriteRows ∨ maxSpriteRows < sprite.length := by
      have h1 : minSpriteRows = 1 := rfl
      have h2 : maxSpriteRows = 15 := rfl
      omega
    rw [draw, if_pos hout]

/-- Two rows over the corner of the torus, from the smallest row and the largest column that a 32-bit
word holds: the difference of the first row wraps. -/
theorem draw_eq_plot_wraps :
    let sprite : List UInt8 := [0xC0, 0x01]
    let x : Int32 := 2147483647
    let y : Int32 := -2147483648
    (1 ≤ sprite.length ∧ sprite.length ≤ 15) ∧
      ∃ e, blank.draw sprite x y = .ok (e, false) ∧
        e.cell 0 63 = 1 ∧ e.cell 0 0 = 1 ∧ e.cell 1 6 = 1 ∧ e.cell 1 0 = 0 := by
  intro sprite x y
  have h : 1 ≤ sprite.length ∧ sprite.length ≤ 15 := by decide
  obtain ⟨-, e, hit, hdraw, hon, hoff, hhit⟩ := (draw_eq_plot blank sprite x y).1 h
  have hnew (r : Fin 32) (c : Fin 64) (hc : (r, c) ∈ spots sprite x.toInt y.toInt) :
      e.cell r c = 1 := by
    rw [hon r c (mem_spots.mp hc), cell_blank]
    rfl
  have hold (r : Fin 32) (c : Fin 64) (hc : (r, c) ∉ spots sprite x.toInt y.toInt) :
      e.cell r c = 0 := by
    rw [hoff r c fun h => hc (mem_spots.mpr h), cell_blank]
  have hmiss : hit = false := by
    rw [← Bool.not_eq_true, hhit]
    rintro ⟨r, c, -, hl⟩
    rw [cell_blank] at hl
    exact absurd hl (by decide)
  subst hmiss
  exact ⟨h, e, hdraw, hnew 0 63 (by decide +kernel), hnew 0 0 (by decide +kernel),
    hnew 1 6 (by decide +kernel), hold 1 0 (by decide +kernel)⟩

end Chip8.Display
