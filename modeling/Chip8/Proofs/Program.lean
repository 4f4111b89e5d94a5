import Chip8.Proofs.Cells
import Chip8.Proofs.Loading
import Chip8.Proofs.Perform

/-!
# Programs in memory

A program that was loaded is fetched as it was written, two bytes at a time.

* `State.load_ok_iff`, `State.load_error_iff`   when a program is loaded and when it is refused;
* `State.shows_of_load`          a program that was loaded stands in memory;
* `State.fetch_of_program`       a fetch within it returns two of its bytes, at an even address or an odd one;
* `assemble`                     words as bytes, the high byte of each first;
* `State.load_then_fetch`        the main statement.
-/

namespace Chip8

/-- The bytes of words, the high byte of each first. -/
def assemble (words : List UInt16) : List UInt8 :=
  words.flatMap fun w : UInt16 => [(w >>> 8).toUInt8, w.toUInt8]

theorem assemble_cons (w : UInt16) (words : List UInt16) :
    assemble (w :: words) = (w >>> 8).toUInt8 :: w.toUInt8 :: assemble words := rfl

theorem length_assemble (words : List UInt16) : (assemble words).length = 2 * words.length := by
  induction words with
  | nil => rfl
  | cons w words ih =>
    rw [assemble_cons, List.length_cons, List.length_cons, List.length_cons, ih]
    omega

/-- Each word has two places. -/
theorem getElem?_assemble {words : List UInt16} {i : Nat} {w : UInt16} (h : words[i]? = some w) :
    (assemble words)[2 * i]? = some (w >>> 8).toUInt8 ∧ (assemble words)[2 * i + 1]? = some w.toUInt8 := by
  induction words generalizing i with
  | nil => cases h
  | cons v words ih =>
    rw [assemble_cons]
    cases i with
    | zero =>
      cases h
      exact ⟨rfl, rfl⟩
    | succ i => exact ih h

namespace State
variable {s t : State} {program : List UInt8}

theorem bigEndian_assembled (w : UInt16) : bigEndian [(w >>> 8).toUInt8, w.toUInt8] = w := by
  have hw := w.toNat_lt
  have hhigh : (w >>> 8).toUInt8.toNat = w.toNat / 256 := by
    rw [UInt16.toNat_toUInt8, UInt16.toNat_shiftRight]
    show w.toNat >>> 8 % 256 = _
    rw [Nat.shiftRight_eq_div_pow]
    omega
  apply UInt16.toNat_inj.mp
  rw [toNat_bigEndian, hhigh, UInt16.toNat_toUInt8]
  omega

/-! ### Loading -/

theorem load_ok_iff : s.load program = .ok t ↔
    program.length ≤ 0xE00 ∧ t = { s with memory := s.memory.store 0x200 program } := by
  rw [load_eq]
  split
  · rename_i h
    exact ⟨nofun, fun e => absurd e.1 (Nat.not_le_of_lt h)⟩
  · rename_i h
    rw [Except.ok.injEq, eq_comm]
    exact (and_iff_right (Nat.le_of_not_lt h)).symm

theorem load_error_iff {c : Cause} : s.load program = .error c ↔
    0xE00 < program.length ∧ c = .programTooLarge program.length := by
  rw [load_eq]
  split
  · rename_i h
    rw [Except.error.injEq, eq_comm]
    exact (and_iff_right h).symm
  · rename_i h
    exact ⟨nofun, fun e => absurd e.1 h⟩

/-- A program that was loaded stands in memory. -/
theorem shows_of_load (h : s.load program = .ok t) : t.memory.Shows 0x200 program := by
  obtain ⟨hlength, rfl⟩ := load_ok_iff.mp h
  exact s.memory.shows_store (by omega)

/-! ### Fetching -/

/-- A fetch puts together the bytes of two cells. -/
theorem fetch_of_cells {high low : UInt8} (hhigh : s.memory[s.pc.toNat]? = some high)
    (hlow : s.memory[s.pc.toNat + 1]? = some low) : s.fetch = .ok (bigEndian [high, low]) := by
  obtain ⟨_, rfl⟩ := Vector.getElem?_eq_some_iff.mp hhigh
  obtain ⟨hlt, rfl⟩ := Vector.getElem?_eq_some_iff.mp hlow
  exact fetch_of_lt hlt

/-- Wherever it starts within a program that stands in memory, a fetch returns two bytes of the program. -/
theorem fetch_of_program (h : s.memory.Shows 0x200 program) {k : Nat} (hpc : s.pc.toNat = 0x200 + k)
    {high low : UInt8} (hhigh : program[k]? = some high) (hlow : program[k + 1]? = some low) :
    s.fetch = .ok (bigEndian [high, low]) := by
  apply fetch_of_cells
  · rw [hpc]
    exact h k high hhigh
  · rw [hpc]
    exact h (k + 1) low hlow

/-- **A program is fetched as it was loaded**, at even addresses and at odd ones, and a load changes nothing
but the cells of the program. -/
theorem load_then_fetch (s : State) :
    (∀ program : List UInt8, ((∃ t, s.load program = .ok t) ↔ program.length ≤ 0xE00) ∧
      (∀ c, s.load program = .error c ↔
        0xE00 < program.length ∧ c = .programTooLarge program.length) ∧
      ∀ t, s.load program = .ok t → t = { s with memory := t.memory } ∧
        t.memory.Shows 0x200 program ∧
        (∀ i, i < 0x200 ∨ 0x200 + program.length ≤ i → t.memory[i]? = s.memory[i]?) ∧
        ∀ (u : State) (k : Nat) (h : k + 1 < program.length), u.memory = t.memory →
          u.pc.toNat = 0x200 + k →
          ∃ w, u.fetch = .ok w ∧ w.toNat = program[k].toNat * 256 + program[k + 1].toNat) ∧
    ∀ words : List UInt16, words.length ≤ 1792 → ∃ t, s.load (assemble words) = .ok t ∧
      ∀ (u : State) (i : Nat) (h : i < words.length), u.memory = t.memory →
        u.pc.toNat = 0x200 + 2 * i → u.fetch = .ok words[i] := by
  refine ⟨fun program => ⟨⟨?_, ?_⟩, fun c => load_error_iff, fun t ht => ⟨?_, shows_of_load ht, ?_, ?_⟩⟩, ?_⟩
  · rintro ⟨t, ht⟩
    exact (load_ok_iff.mp ht).1
  · exact fun h => ⟨_, load_ok_iff.mpr ⟨h, rfl⟩⟩
  · rw [(load_ok_iff.mp ht).2]
  · intro i hi
    rw [(load_ok_iff.mp ht).2]
    exact s.memory.getElem?_store_of_outside hi
  · intro u k h hmemory hpc
    have hshows : u.memory.Shows 0x200 program := hmemory ▸ shows_of_load ht
    exact ⟨_, fetch_of_program hshows hpc (List.getElem?_eq_getElem (Nat.lt_of_succ_lt h))
      (List.getElem?_eq_getElem h), toNat_bigEndian _ _⟩
  · intro words hwords
    have hlength : (assemble words).length ≤ 0xE00 := by
      rw [length_assemble]
      omega
    have hload := (load_ok_iff (s := s)).mpr ⟨hlength, rfl⟩
    refine ⟨_, hload, fun u i h hmemory hpc => ?_⟩
    have hshows : u.memory.Shows 0x200 (assemble words) := hmemory ▸ shows_of_load hload
    obtain ⟨hhigh, hlow⟩ := getElem?_assemble (List.getElem?_eq_getElem h)
    rw [fetch_of_program hshows hpc hhigh hlow, bigEndian_assembled]

/-- A fetch at an odd address, up to the last byte of the program; and the words of the same bytes. -/
theorem load_then_fetch_odd :
    let s := initial ⟨0, 0⟩ false
    (∃ t, s.load [0x12, 0x34, 0x56] = .ok t ∧
      ∃ w, { t with pc := 0x201 }.fetch = .ok w ∧ w.toNat = 0x3456) ∧
    [(0x1234 : UInt16), 0x5678].length ≤ 1792 ∧
      ∃ t, s.load (assemble [0x1234, 0x5678]) = .ok t ∧ { t with pc := 0x202 }.fetch = .ok 0x5678 := by
  intro s
  obtain ⟨hprogram, hwords⟩ := load_then_fetch s
  obtain ⟨hok, -, hloaded⟩ := hprogram [0x12, 0x34, 0x56]
  obtain ⟨t, ht⟩ := hok.mpr (by decide)
  obtain ⟨-, -, -, hfetch⟩ := hloaded t ht
  have hlength : [(0x1234 : UInt16), 0x5678].length ≤ 1792 := by decide
  obtain ⟨u, hu, hword⟩ := hwords [0x1234, 0x5678] hlength
  have hodd : (0x201 : UInt16).toNat = 0x200 + 1 := by decide
  have heven : (0x202 : UInt16).toNat = 0x200 + 2 * 1 := by decide
  obtain ⟨w, hw, hvalue⟩ := hfetch { t with pc := 0x201 } 1 (by decide) rfl hodd
  exact ⟨⟨t, ht, w, hw, hvalue⟩, hlength, u, hu, hword { u with pc := 0x202 } 1 (by decide) rfl heven⟩

end State

end Chip8
