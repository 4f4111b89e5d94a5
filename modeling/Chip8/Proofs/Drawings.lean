import Chip8.Proofs.Invariant
import Chip8.Proofs.Plot

/-!
# Many drawings

A drawing flips the cells under the lit pixels of its sprite.  So what a number of drawings leaves in a
cell depends only on how many of them cover it: their order plays no part, and two of a kind undo each
other.

* `Drawing`                       a sprite that can be drawn, and where to;
* `drawAll`, `flips`              drawings one after the other, and what they leave;
* `cell_flips`                    a cell is flipped once for each drawing that covers it;
* `meets_or_meets_iff`            which of two equal drawings reports a lit pixel;
* `drawings_commute_and_cancel`   the main statement.
-/

namespace Chip8

structure Drawing where
  sprite : List UInt8
  x : Int32
  y : Int32
  rows : 1 ≤ sprite.length ∧ sprite.length ≤ 15
  deriving DecidableEq

namespace Drawing

def mask (a : Drawing) : Display := .mask a.sprite a.x a.y

/-- Some lit pixel of the sprite falls on the cell. -/
def covers (p : Fin 32 × Fin 64) (a : Drawing) : Bool := p ∈ Display.spots a.sprite a.x.toInt a.y.toInt

theorem length_le (a : Drawing) : a.sprite.length ≤ 32 := Nat.le_trans a.rows.2 (by decide)

theorem draw_eq (a : Drawing) (d : Display) :
    d.draw a.sprite a.x a.y = .ok (d.flip a.mask, d.meets a.mask) :=
  Display.draw_eq_ok d a.x a.y a.rows

theorem cell_flip (a : Drawing) (d : Display) (r : Fin 32) (c : Fin 64) :
    (d.flip a.mask).cell r c = if a.covers (r, c) then d.cell r c ^^^ 1 else d.cell r c := by
  rw [mask, Display.cell_flip_mask a.length_le, covers]
  simp only [decide_eq_true_eq]

end Drawing

namespace Display

/-- The drawings one after the other, whatever they report. -/
def drawAll (d : Display) : List Drawing → Except Cause Display
  | [] => .ok d
  | a :: as => do
    let (e, _) ← d.draw a.sprite a.x a.y
    e.drawAll as

def flips (d : Display) (as : List Drawing) : Display := as.foldl (fun d a => d.flip a.mask) d

theorem flips_cons (d : Display) (a : Drawing) (as : List Drawing) :
    d.flips (a :: as) = (d.flip a.mask).flips as := rfl

theorem drawAll_eq (d : Display) (as : List Drawing) : d.drawAll as = .ok (d.flips as) := by
  induction as generalizing d with
  | nil => rfl
  | cons a as ih =>
    rw [drawAll, a.draw_eq, flips_cons]
    exact ih _

/-! ### Order and number -/

theorem cell_flips (d : Display) (as : List Drawing) (r : Fin 32) (c : Fin 64) :
    (d.flips as).cell r c =
      if Even (as.countP (Drawing.covers (r, c))) then d.cell r c else d.cell r c ^^^ 1 := by
  induction as generalizing d with
  | nil => rfl
  | cons a as ih =>
    rw [flips_cons, ih, a.cell_flip]
    by_cases ha : a.covers (r, c) = true
    · have hodd : Even (as.countP (Drawing.covers (r, c)) + 1) ↔
          ¬ Even (as.countP (Drawing.covers (r, c))) := Nat.even_add_one
      rw [List.countP_cons_of_pos ha, if_pos ha]
      by_cases heven : Even (as.countP (Drawing.covers (r, c)))
      · rw [if_pos heven, if_neg (fun h => hodd.mp h heven)]
      · rw [if_neg heven, if_pos (hodd.mpr heven), UInt8.xor_assoc, UInt8.xor_self, UInt8.xor_zero]
    · rw [List.countP_cons_of_neg ha, if_neg ha]

theorem flips_perm (d : Display) {as bs : List Drawing} (h : as.Perm bs) :
    d.flips as = d.flips bs := by
  refine ext_cell fun r c => ?_
  rw [cell_flips, cell_flips, h.countP_eq]

/-- If everything occurs an even number of times, then so does everything of a kind. -/
theorem even_countP {α : Type} [DecidableEq α] {l : List α} (h : ∀ a ∈ l, Even (l.count a))
    (p : α → Bool) : Even (l.countP p) := by
  rw [← List.sum_map_count_dedup_filter_eq_countP, even_iff_two_dvd]
  refine List.dvd_sum fun n hn => ?_
  obtain ⟨a, ha, rfl⟩ := List.mem_map.mp hn
  have hmem : a ∈ l := List.mem_dedup.mp (List.mem_filter.mp ha).1
  exact even_iff_two_dvd.mp (h a hmem)

theorem flips_of_even (d : Display) (as : List Drawing) (h : ∀ a ∈ as, Even (as.count a)) :
    d.flips as = d := by
  refine ext_cell fun r c => ?_
  rw [cell_flips, if_pos (even_countP h _)]

theorem flip_flip (d : Display) (a : Drawing) : (d.flip a.mask).flip a.mask = d := by
  refine flips_of_even d [a, a] fun b hb => ?_
  obtain rfl : b = a := by simpa using hb
  rw [List.count_cons_self, List.count_cons_self, List.count_nil]
  exact even_two

/-! ### Collisions -/

theorem isLit_flip_mask (d : Display) (a : Drawing) {p : Fin 32 × Fin 64}
    (hp : a.covers p = true) : (d.flip a.mask).isLit p = !d.isLit p := by
  have hbit (b : UInt8) : (b ^^^ 1) &&& 1 = (b &&& 1) ^^^ 1 := by
    apply UInt8.toNat_inj.mp
    rw [UInt8.toNat_and, UInt8.toNat_xor, UInt8.toNat_xor, UInt8.toNat_and]
    exact Nat.and_xor_distrib_right
  rw [isLit, isLit, a.cell_flip, if_pos hp, hbit]
  rcases and_one_cases (d.cell p.1 p.2) with h | h
  · rw [h]
    rfl
  · rw [h]
    rfl

theorem exists_lit_iff {bits : UInt8} : (∃ j, lit bits j = true) ↔ bits ≠ 0 := by
  constructor
  · rintro ⟨j, hj⟩ rfl
    rw [lit, show (0 : UInt8).toNat = 0 from rfl, Nat.zero_testBit] at hj
    cases hj
  · intro h
    have hne : bits.toNat ≠ 0 := fun e => h (UInt8.toNat_inj.mp e)
    obtain ⟨i, hi⟩ := Nat.exists_testBit_of_ne_zero hne
    have hlt : i < 8 := by
      by_contra hge
      have hpow : 2 ^ 8 ≤ 2 ^ i := Nat.pow_le_pow_right (by decide) (by omega)
      have := Nat.ge_two_pow_of_testBit hi
      have := bits.toNat_lt
      omega
    refine ⟨⟨7 - i, by omega⟩, ?_⟩
    rw [lit, show 7 - (7 - i) = i by omega]
    exact hi

/-- A sprite covers something exactly if it has a byte that is not zero. -/
theorem exists_covers_iff (a : Drawing) :
    (∃ p, a.covers p = true) ↔ ∃ bits ∈ a.sprite, bits ≠ 0 := by
  constructor
  · rintro ⟨p, hp⟩
    obtain ⟨i, j, bits, hbits, hj, -⟩ := mem_spots.mp (of_decide_eq_true hp)
    exact ⟨bits, List.mem_of_getElem? hbits, exists_lit_iff.mp ⟨j, hj⟩⟩
  · rintro ⟨bits, hmem, hne⟩
    obtain ⟨i, hi⟩ := List.mem_iff_getElem?.mp hmem
    obtain ⟨j, hj⟩ := exists_lit_iff.mpr hne
    exact ⟨_, decide_eq_true (mem_spots.mpr ⟨i, j, bits, hi, hj, rfl⟩)⟩

/-- A cell under the sprite is lit before the first of two equal drawings or before the second one. -/
theorem meets_or_meets_iff (d : Display) (a : Drawing) :
    (d.meets a.mask = true ∨ (d.flip a.mask).meets a.mask = true) ↔
      ∃ bits ∈ a.sprite, bits ≠ 0 := by
  have hmeets (e : Display) : e.meets a.mask = true ↔
      ∃ p ∈ spots a.sprite a.x.toInt a.y.toInt, e.isLit p = true := meets_mask_iff a.length_le a.x a.y
  rw [hmeets, hmeets, ← exists_covers_iff]
  constructor
  · rintro (⟨p, hp, -⟩ | ⟨p, hp, -⟩)
    · exact ⟨p, decide_eq_true hp⟩
    · exact ⟨p, decide_eq_true hp⟩
  · rintro ⟨p, hp⟩
    cases hlit : d.isLit p with
    | true => exact .inl ⟨p, of_decide_eq_true hp, hlit⟩
    | false =>
      refine .inr ⟨p, of_decide_eq_true hp, ?_⟩
      rw [isLit_flip_mask d a hp, hlit]
      rfl

/-- **Drawings commute and cancel**, since each cell is flipped as often as it is covered.  Two equal drawings
in a row restore the display, and one of them puts a lit pixel out unless the sprite is empty. -/
theorem drawings_commute_and_cancel (d : Display) (as : List Drawing) :
    ∃ e, d.drawAll as = .ok e ∧
      (∀ r c, e.cell r c =
        if Even (as.countP (Drawing.covers (r, c))) then d.cell r c else d.cell r c ^^^ 1) ∧
      (∀ bs, as.Perm bs → d.drawAll bs = .ok e) ∧
      ((∀ a ∈ as, Even (as.count a)) → e = d) ∧
      ∀ a : Drawing, ∃ f first second, d.draw a.sprite a.x a.y = .ok (f, first) ∧
        f.draw a.sprite a.x a.y = .ok (d, second) ∧
        ((first = true ∨ second = true) ↔ ∃ bits ∈ a.sprite, bits ≠ 0) := by
  refine ⟨d.flips as, drawAll_eq d as, cell_flips d as, fun bs h => ?_, flips_of_even d as,
    fun a => ?_⟩
  · rw [drawAll_eq, flips_perm d h]
  · refine ⟨_, _, _, a.draw_eq d, ?_, meets_or_meets_iff d a⟩
    rw [a.draw_eq, flip_flip]

/-- Two sprites that overlap at the corner of the torus, each drawn twice. -/
theorem drawings_commute_and_cancel_overlapping :
    let a : Drawing := ⟨[0xFF, 0x81], 60, 31, by decide⟩
    let b : Drawing := ⟨[0x18], -2, -1, by decide⟩
    let d := blank.flip b.mask
    [a, b, b, a].Perm [a, a, b, b] ∧ (∀ c ∈ [a, b, b, a], Even ([a, b, b, a].count c)) ∧
      d.drawAll [a, b, b, a] = .ok d ∧ d.drawAll [a, a, b, b] = .ok d := by
  intro a b d
  have hperm : [a, b, b, a].Perm [a, a, b, b] := by decide
  have heven : ∀ c ∈ [a, b, b, a], Even ([a, b, b, a].count c) := by decide
  obtain ⟨e, hall, -, horder, hcancel, -⟩ := drawings_commute_and_cancel d [a, b, b, a]
  rw [hcancel heven] at hall horder
  exact ⟨hperm, heven, hall, horder _ hperm⟩

end Display

end Chip8
