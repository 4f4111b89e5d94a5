import Chip8.Instruction
import Mathlib.Tactic.Common

/-!
# The opcode table

`Instruction.layout` writes the table down in the other direction: the family and the operands of
each instruction.  `Instruction.word` puts them together into a word.

* `ofWord?_eq_some_iff`  a word stands for an instruction exactly if it is that instruction's word;
* `ofWord?_eq_none_iff`  the words that stand for none, by their nibbles (`Word.Unlisted`);
* `decode_eq_ok_iff`, `decode_eq_error_iff`  the same for integers of any size.
-/

namespace Chip8

/-! ### Operands and their place in a word -/

namespace Operands

/-- The word with the nibble `f` in front of the operands. -/
def word (f : Fin 16) : Operands → Nat
  | address nnn => f * 0x1000 + nnn
  | immediate x kk => f * 0x1000 + x * 0x100 + kk.toNat
  | registers x y n => f * 0x1000 + x * 0x100 + y * 0x10 + n

/-- The families whose words hold operands of this kind. -/
def Fits : Operands → Fin 16 → Prop
  | address _, f => f = 0 ∨ f = 1 ∨ f = 2 ∨ f = 0xA ∨ f = 0xB
  | immediate _ _, f => f = 3 ∨ f = 4 ∨ f = 6 ∨ f = 7 ∨ f = 0xC ∨ f = 0xE ∨ f = 0xF
  | registers _ _ _, f => f = 5 ∨ f = 8 ∨ f = 9 ∨ f = 0xD

theorem word_lt (f : Fin 16) (o : Operands) : o.word f < 65536 := by
  cases o with
  | address nnn => simp only [word]; omega
  | immediate x kk =>
    have := kk.toNat_lt
    simp only [word]; omega
  | registers x y n => simp only [word]; omega

/-! The parts of a word, as quotients and remainders of an integer. -/

@[simp] theorem word_div (f : Fin 16) (o : Operands) : (o.word f : Int) / 0x1000 = f.val := by
  cases o with
  | address nnn => simp only [word]; omega
  | immediate x kk =>
    have := kk.toNat_lt
    simp only [word]; omega
  | registers x y n => simp only [word]; omega

@[simp] theorem word_immediate_mod (f x : Fin 16) (kk : UInt8) :
    ((immediate x kk).word f : Int) % 0x100 = kk.toNat := by
  have := kk.toNat_lt
  simp only [word]; omega

@[simp] theorem word_registers_mod (f x y n : Fin 16) :
    ((registers x y n).word f : Int) % 0x10 = n.val := by
  simp only [word]; omega

end Operands

namespace Word

theorem toNat_lowByte (w : UInt16) : (lowByte w).toNat = w.toNat % 256 := rfl

theorem operands_fits (w : UInt16) : (operands w).Fits (family w) := by
  unfold operands
  split
  all_goals simp_all [Operands.Fits]
  omega

/-- The family and the operands make up the whole word. -/
theorem word_operands (w : UInt16) : (operands w).word (family w) = w.toNat := by
  have hw := w.toNat_lt
  have hf : (family w).val = w.toNat / 4096 % 16 := rfl
  unfold operands
  split
  all_goals
    simp only [Operands.word, hf, nibble, address, toNat_lowByte, Nat.pow_eq]
    omega

theorem family_eq {w : UInt16} {f : Fin 16} {o : Operands} (h : o.word f = w.toNat) :
    family w = f := by
  apply Fin.ext
  show w.toNat / 4096 % 16 = f
  cases o with
  | address nnn => simp only [Operands.word] at h; omega
  | immediate x kk =>
    have := kk.toNat_lt
    simp only [Operands.word] at h; omega
  | registers x y n => simp only [Operands.word] at h; omega

theorem operands_eq {w : UInt16} {f : Fin 16} {o : Operands} (h : o.word f = w.toNat)
    (ho : o.Fits f) : operands w = o := by
  have hf := family_eq h
  cases o with
  | address nnn =>
    have ha : address w = nnn := by
      apply Fin.ext
      simp only [Operands.word] at h
      show w.toNat % 4096 = nnn
      omega
    rcases ho with rfl | rfl | rfl | rfl | rfl <;> simp only [operands, hf, ha]
  | immediate x kk =>
    have hk := kk.toNat_lt
    simp only [Operands.word] at h
    have hx : nibble w 2 = x := by
      apply Fin.ext
      show w.toNat / 256 % 16 = x
      omega
    have hkk : lowByte w = kk := by
      apply UInt8.toNat_inj.mp
      rw [toNat_lowByte]
      omega
    rcases ho with rfl | rfl | rfl | rfl | rfl | rfl | rfl <;> simp only [operands, hf, hx, hkk]
  | registers x y n =>
    simp only [Operands.word] at h
    have hx : nibble w 2 = x := by
      apply Fin.ext
      show w.toNat / 256 % 16 = x
      omega
    have hy : nibble w 1 = y := by
      apply Fin.ext
      show w.toNat / 16 % 16 = y
      omega
    have hn : nibble w 0 = n := by
      apply Fin.ext
      show w.toNat / 1 % 16 = n
      omega
    rcases ho with rfl | rfl | rfl | rfl <;> simp only [operands, hf, hx, hy, hn]

end Word

/-! ### The table -/

/-- The last nibble of `8XYN`. -/
def Arith.nibble : Arith → Fin 16
  | .set => 0
  | .or => 1
  | .and => 2
  | .xor => 3
  | .add => 4
  | .sub => 5
  | .shiftRight => 6
  | .subFrom => 7
  | .shiftLeft => 0xE

theorem Arith.ofNibble?_nibble (op : Arith) : Arith.ofNibble? op.nibble = some op := by
  cases op <;> rfl

theorem Arith.nibble_of_ofNibble? {n : Fin 16} {op : Arith} (h : Arith.ofNibble? n = some op) :
    op.nibble = n := by
  unfold Arith.ofNibble? at h
  split at h
  all_goals cases h <;> rfl

namespace Instruction

/-- The family and the operands of an instruction. -/
def layout : Instruction → Fin 16 × Operands
  | clearScreen => (0x0, .address 0x0E0)
  | .return => (0x0, .address 0x0EE)
  | jump a => (0x1, .address a)
  | call a => (0x2, .address a)
  | skipIfEqual x k => (0x3, .immediate x k)
  | skipUnlessEqual x k => (0x4, .immediate x k)
  | skipIfSame x y => (0x5, .registers x y 0)
  | set x k => (0x6, .immediate x k)
  | add x k => (0x7, .immediate x k)
  | arith op x y => (0x8, .registers x y op.nibble)
  | skipUnlessSame x y => (0x9, .registers x y 0)
  | setIndex a => (0xA, .address a)
  | jumpOffset a => (0xB, .address a)
  | random x k => (0xC, .immediate x k)
  | draw x y n => (0xD, .registers x y n)
  | skipIfKey x => (0xE, .immediate x 0x9E)
  | skipUnlessKey x => (0xE, .immediate x 0xA1)
  | readDelay x => (0xF, .immediate x 0x07)
  | awaitKey x => (0xF, .immediate x 0x0A)
  | setDelay x => (0xF, .immediate x 0x15)
  | setSound x => (0xF, .immediate x 0x18)
  | addIndex x => (0xF, .immediate x 0x1E)
  | glyph x => (0xF, .immediate x 0x29)
  | digits x => (0xF, .immediate x 0x33)
  | saveRegisters x => (0xF, .immediate x 0x55)
  | loadRegisters x => (0xF, .immediate x 0x65)

/-- The word of an instruction. -/
def word (i : Instruction) : Nat := i.layout.2.word i.layout.1

theorem layout_fits (i : Instruction) : i.layout.2.Fits i.layout.1 := by
  cases i <;> simp [layout, Operands.Fits]

theorem word_lt (i : Instruction) : i.word < 65536 := Operands.word_lt _ _

theorem layout_of_ofMisc? {x : Fin 16} {k : UInt8} {i : Instruction} (h : ofMisc? x k = some i) :
    i.layout = (0xF, .immediate x k) := by
  unfold ofMisc? at h
  split at h
  all_goals cases h <;> rfl

/-- A word's instruction has the family and the operands of the word. -/
theorem layout_of_ofWord? {w : UInt16} {i : Instruction} (h : ofWord? w = some i) :
    i.layout = (Word.family w, Word.operands w) := by
  unfold ofWord? at h
  split at h
  case h_1 _ _ nnn hf ho =>
    split at h
    · rename_i hw
      cases h
      subst hw
      rfl
    · split at h
      · rename_i hw
        cases h
        subst hw
        rfl
      · cases h
  case h_6 _ _ x y n hf ho | h_10 _ _ x y n hf ho =>
    split at h
    · rename_i hn
      cases h
      rw [hf, ho, hn]
      rfl
    · cases h
  case h_9 _ _ x y n hf ho =>
    obtain ⟨op, hop, rfl⟩ := Option.map_eq_some_iff.mp h
    rw [hf, ho, ← Arith.nibble_of_ofNibble? hop]
    rfl
  case h_15 _ _ x k hf ho =>
    split at h
    · rename_i hk
      cases h
      rw [hf, ho, hk]
      rfl
    · split at h
      · rename_i hk
        cases h
        rw [hf, ho, hk]
        rfl
      · cases h
  case h_16 _ _ x k hf ho =>
    rw [hf, ho]
    exact layout_of_ofMisc? h
  case h_17 => cases h
  all_goals
    rename_i hf ho
    cases h
    rw [hf, ho]
    rfl

theorem ofWord?_eq_some_iff {w : UInt16} {i : Instruction} :
    ofWord? w = some i ↔ i.word = w.toNat := by
  refine ⟨fun h => ?_, fun h => ?_⟩
  · rw [word, layout_of_ofWord? h]
    exact Word.word_operands w
  · have hf := Word.family_eq h
    have ho := Word.operands_eq h i.layout_fits
    cases i with
    | clearScreen =>
      have hw : w = 0x00E0 := UInt16.toNat_inj.mp h.symm
      rw [hw]
      rfl
    | «return» =>
      have hw : w = 0x00EE := UInt16.toNat_inj.mp h.symm
      rw [hw]
      rfl
    | arith op x y => simp [ofWord?, hf, ho, layout, Arith.ofNibble?_nibble]
    | _ => simp [ofWord?, hf, ho, layout, ofMisc?]

/-- Two instructions have different words. -/
theorem word_injective : Function.Injective word := by
  intro i j h
  have hi : ofWord? (UInt16.ofNat i.word) = some i :=
    ofWord?_eq_some_iff.mpr (UInt16.toNat_ofNat_of_lt' i.word_lt).symm
  have hj : ofWord? (UInt16.ofNat i.word) = some j :=
    ofWord?_eq_some_iff.mpr (by rw [UInt16.toNat_ofNat_of_lt' i.word_lt, h])
  rw [hi] at hj
  exact Option.some.inj hj

end Instruction

@[simp] theorem Instruction.word_inj {i j : Instruction} : i.word = j.word ↔ i = j :=
  ⟨fun h => Instruction.word_injective h, congrArg word⟩

@[simp] theorem Instruction.word_le (i : Instruction) : i.word ≤ 0xFFFF :=
  Nat.le_of_lt_succ i.word_lt

/-! ### The same for words as integers -/

@[simp] theorem Instruction.word_eq_word_iff {i j : Instruction} :
    (i.word : Int) = j.word ↔ i = j :=
  Int.natCast_inj.trans word_inj

@[simp] theorem Instruction.not_lt_word (i : Instruction) : ¬ (0xFFFF : Int) < i.word := by
  have := i.word_le
  omega

/-! ### The words that stand for no instruction -/

/-- A word that the table leaves out: a machine routine `0NNN`, `5XYN` or `9XYN` whose last nibble
is not zero, or a last nibble or byte that family `8`, `E` or `F` does not know. -/
def Word.Unlisted (w : Int) : Prop :=
  (w / 0x1000 = 0x0 ∧ w ≠ 0x00E0 ∧ w ≠ 0x00EE) ∨
  ((w / 0x1000 = 0x5 ∨ w / 0x1000 = 0x9) ∧ w % 0x10 ≠ 0) ∨
  (w / 0x1000 = 0x8 ∧ (0x8 ≤ w % 0x10 ∧ w % 0x10 ≤ 0xD ∨ w % 0x10 = 0xF)) ∨
  (w / 0x1000 = 0xE ∧ w % 0x100 ≠ 0x9E ∧ w % 0x100 ≠ 0xA1) ∨
  (w / 0x1000 = 0xF ∧ w % 0x100 ≠ 0x07 ∧ w % 0x100 ≠ 0x0A ∧ w % 0x100 ≠ 0x15 ∧ w % 0x100 ≠ 0x18 ∧
    w % 0x100 ≠ 0x1E ∧ w % 0x100 ≠ 0x29 ∧ w % 0x100 ≠ 0x33 ∧ w % 0x100 ≠ 0x55 ∧ w % 0x100 ≠ 0x65)

theorem Word.Unlisted.range {w : Int} (h : Word.Unlisted w) : 0 ≤ w ∧ w ≤ 0xFFFF := by
  unfold Word.Unlisted at h
  omega

namespace Instruction

@[simp] theorem not_unlisted_word (i : Instruction) : ¬ Word.Unlisted i.word := by
  cases i with
  | arith op x y => cases op <;> simp +decide [Word.Unlisted, word, layout, Arith.nibble]
  | _ => simp +decide [Word.Unlisted, word, layout]

theorem ofMisc?_eq_none {x : Fin 16} {k : UInt8} (h : ofMisc? x k = none) :
    let b : Int := k.toNat
    b ≠ 0x07 ∧ b ≠ 0x0A ∧ b ≠ 0x15 ∧ b ≠ 0x18 ∧ b ≠ 0x1E ∧ b ≠ 0x29 ∧ b ≠ 0x33 ∧ b ≠ 0x55 ∧
      b ≠ 0x65 := by
  have ne (c : UInt8) (hc : ofMisc? x c ≠ none) : (k.toNat : Int) ≠ c.toNat := fun e => by
    rw [UInt8.toNat_inj.mp (Int.ofNat.inj e)] at h
    exact hc h
  exact ⟨ne 0x07 nofun, ne 0x0A nofun, ne 0x15 nofun, ne 0x18 nofun, ne 0x1E nofun,
    ne 0x29 nofun, ne 0x33 nofun, ne 0x55 nofun, ne 0x65 nofun⟩

theorem unlisted_of_ofWord? {w : UInt16} (h : ofWord? w = none) : Word.Unlisted w.toNat := by
  have hw := Word.word_operands w
  have hfit := Word.operands_fits w
  unfold ofWord? at h
  split at h
  case h_1 _ _ nnn hf ho =>
    have h1 : w ≠ 0x00E0 := fun e => by simp [e] at h
    have h2 : w ≠ 0x00EE := fun e => by simp [e] at h
    have h3 : (w.toNat : Int) / 0x1000 = 0 := by rw [← hw, hf, Operands.word_div]; rfl
    exact .inl ⟨h3, fun e => h1 (UInt16.toNat_inj.mp (Int.ofNat.inj e)),
      fun e => h2 (UInt16.toNat_inj.mp (Int.ofNat.inj e))⟩
  case h_6 _ _ x y n hf ho | h_10 _ _ x y n hf ho =>
    have hn : n ≠ 0 := fun e => by simp [e] at h
    rw [← hw, hf, ho, Word.Unlisted, Operands.word_div, Operands.word_registers_mod]
    exact .inr (.inl ⟨by decide, fun e => hn (Fin.ext (Int.ofNat.inj e))⟩)
  case h_9 _ _ x y n hf ho =>
    have hn : Arith.ofNibble? n = none := by simpa using h
    rw [← hw, hf, ho, Word.Unlisted, Operands.word_div, Operands.word_registers_mod]
    refine .inr (.inr (.inl ⟨by decide, ?_⟩))
    clear hw hfit ho h
    revert n
    decide
  case h_15 _ _ x k hf ho =>
    have h1 : k ≠ 0x9E := fun e => by simp [e] at h
    have h2 : k ≠ 0xA1 := fun e => by simp [e] at h
    rw [← hw, hf, ho, Word.Unlisted, Operands.word_div, Operands.word_immediate_mod]
    exact .inr (.inr (.inr (.inl ⟨by decide, fun e => h1 (UInt8.toNat_inj.mp (Int.ofNat.inj e)),
      fun e => h2 (UInt8.toNat_inj.mp (Int.ofNat.inj e))⟩)))
  case h_16 _ _ x k hf ho =>
    rw [← hw, hf, ho, Word.Unlisted, Operands.word_div, Operands.word_immediate_mod]
    exact .inr (.inr (.inr (.inr ⟨by decide, ofMisc?_eq_none h⟩)))
  case h_17 _ _ a0 a1 a2 i3 i4 r5 i6 i7 r8 r9 aA aB iC rD iE iF =>
    -- the operands always fit the family, so none of the rows above can have been missed
    cases ho : Word.operands w with
    | address a =>
      rw [ho] at hfit
      rcases hfit with hf | hf | hf | hf | hf
      exacts [(a0 _ hf ho).elim, (a1 _ hf ho).elim, (a2 _ hf ho).elim, (aA _ hf ho).elim,
        (aB _ hf ho).elim]
    | immediate x k =>
      rw [ho] at hfit
      rcases hfit with hf | hf | hf | hf | hf | hf | hf
      exacts [(i3 _ _ hf ho).elim, (i4 _ _ hf ho).elim, (i6 _ _ hf ho).elim, (i7 _ _ hf ho).elim,
        (iC _ _ hf ho).elim, (iE _ _ hf ho).elim, (iF _ _ hf ho).elim]
    | registers x y n =>
      rw [ho] at hfit
      rcases hfit with hf | hf | hf | hf
      exacts [(r5 _ _ _ hf ho).elim, (r8 _ _ _ hf ho).elim, (r9 _ _ _ hf ho).elim,
        (rD _ _ _ hf ho).elim]
  all_goals cases h

theorem ofWord?_eq_none_iff {w : UInt16} : ofWord? w = none ↔ Word.Unlisted w.toNat := by
  refine ⟨unlisted_of_ofWord?, fun h => ?_⟩
  cases hi : ofWord? w with
  | none => rfl
  | some i =>
    rw [← ofWord?_eq_some_iff.mp hi] at h
    exact absurd h i.not_unlisted_word

/-! ### Integers -/

theorem toNat_ofNat_of_range {w : Int} (h0 : 0 ≤ w) (h1 : w ≤ 0xFFFF) :
    ((UInt16.ofNat w.toNat).toNat : Int) = w := by
  have h : w.toNat < UInt16.size := by
    show w.toNat < 65536
    omega
  rw [UInt16.toNat_ofNat_of_lt' h]
  omega

theorem decode_of_range {w : Int} (h0 : 0 ≤ w) (h1 : w ≤ 0xFFFF) :
    decode w = match ofWord? (UInt16.ofNat w.toNat) with
      | some i => .ok i
      | none => .error (.unknownInstruction (UInt16.ofNat w.toNat)) := by
  rw [decode, Word.ofInt?, if_pos ⟨h0, h1⟩]
  rfl

theorem decode_of_not_range {w : Int} (h : w < 0 ∨ 0xFFFF < w) :
    decode w = .error (.notAWord w) := by
  rw [decode, Word.ofInt?, if_neg (by omega)]
  rfl

theorem decode_eq_ok_iff {w : Int} {i : Instruction} : decode w = .ok i ↔ (i.word : Int) = w := by
  by_cases h : 0 ≤ w ∧ w ≤ 0xFFFF
  · have hn := toNat_ofNat_of_range h.1 h.2
    have hi : ofWord? (UInt16.ofNat w.toNat) = some i ↔ (i.word : Int) = w := by
      rw [ofWord?_eq_some_iff]
      omega
    rw [decode_of_range h.1 h.2, ← hi]
    cases ofWord? (UInt16.ofNat w.toNat) with
    | none => simp
    | some j => simp
  · have := i.word_lt
    rw [decode_of_not_range (by omega)]
    exact ⟨nofun, fun hw => by omega⟩

theorem decode_eq_error_iff {w : Int} {c : Cause} : decode w = .error c ↔
    (w < 0 ∨ 0xFFFF < w) ∧ c = .notAWord w ∨
      Word.Unlisted w ∧ c = .unknownInstruction (UInt16.ofNat w.toNat) := by
  by_cases h : 0 ≤ w ∧ w ≤ 0xFFFF
  · have hr : ¬ (w < 0 ∨ 0xFFFF < w) := by omega
    have hu : ofWord? (UInt16.ofNat w.toNat) = none ↔ Word.Unlisted w := by
      rw [ofWord?_eq_none_iff, toNat_ofNat_of_range h.1 h.2]
    rw [decode_of_range h.1 h.2, ← hu]
    cases ofWord? (UInt16.ofNat w.toNat) with
    | none => simp [hr, eq_comm]
    | some j => simp [hr]
  · have hr : w < 0 ∨ 0xFFFF < w := by omega
    have hu : ¬ Word.Unlisted w := fun hu => h hu.range
    rw [decode_of_not_range hr]
    simp [hr, hu, eq_comm]

end Instruction

end Chip8
