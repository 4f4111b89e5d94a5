import Chip8.State

/-!
# Reading memory

A read that is let through brings the cells from its address on.  It brings as many as it asks for, unless
it asks for fewer than none: then the end of its range may lie below zero, and is counted from the end of
memory.

* `Shows m a bytes`         the bytes stand in the cells from `a` on;
* `shows_slice`, `shows_store`   so they do in a slice, and after they were stored;
* `extent a n`              how many bytes a read brings that is let through;
* `read_cases`              what a read comes to, whatever the address and the length;
* `read_length_eq_ok_iff`   bytes are read back exactly if they stand there, within memory;
* `read_of_accepted`        what is read, cell by cell;
* `Answers m a n`           a read comes to what it should: a refusal, or as many cells as it asks for;
* `read_answers`            the main statement; `read_below_zero` is a read that comes to something else.
-/

namespace Chip8.Memory

/-- The bytes stand in the cells from `a` on. -/
def Shows (m : Memory) (a : Nat) (bytes : List UInt8) : Prop :=
  ∀ k b, bytes[k]? = some b → m[a + k]? = some b

/-- How many bytes a read brings that is let through.  With a length below zero it brings none, unless the
range ends below zero too: counted from the end of memory, that end may lie behind the address. -/
def extent (a n : Int) : Int := if 0 ≤ n then n else if 0 ≤ a + n then 0 else max 0 (4096 + n)

/-- A read comes to what it should: a refusal, or as many bytes as it asks for, each from its cell. -/
def Answers (m : Memory) (a n : Int) : Prop :=
  (∃ c, m.read a n = .error c ∧ c.kind = .memoryBounds) ∨
    ∃ bytes, m.read a n = .ok bytes ∧ (bytes.length : Int) = n ∧
      ∀ (k : Nat) (b : UInt8), bytes[k]? = some b →
        0 ≤ a + k ∧ a + k ≤ 4095 ∧ m[(a + k).toNat]? = some b

variable {m : Memory}

/-! ### Cells that are shown -/

/-- Whatever its ends are, a slice shows cells of memory. -/
theorem shows_slice (m : Memory) (start : Nat) (stop : Int) : m.Shows start (m.slice start stop) := by
  intro k b h
  have hk : k < (m.slice start stop).length := (List.getElem?_eq_some_iff.mp h).1
  rw [slice, Array.length_toList, Array.size_extract] at hk
  rw [slice, Array.getElem?_toList, Array.getElem?_extract, if_pos hk, Vector.getElem?_toArray] at h
  exact h

theorem length_slice_eq (m : Memory) (start : Nat) (stop : Int) :
    (m.slice start stop).length = min (if stop < 0 then stop + 4096 else stop).toNat 4096 - start := by
  rw [slice, Array.length_toList, Array.size_extract, Vector.size_toArray]
  rfl

theorem length_slice_extent (m : Memory) {a n : Int} (h0 : 0 ≤ a) (h1 : a + n ≤ 4096) :
    ((m.slice a.toNat (a + n)).length : Int) = extent a n := by
  rw [length_slice_eq, extent]
  by_cases hstop : a + n < 0
  · -- the end is counted from the end of memory; with `n` below `-4096` it is below zero even so
    rw [if_pos hstop, if_neg (by omega), if_neg (by omega)]
    omega
  · rw [if_neg hstop]
    split <;> omega

/-- Cells of memory that are as many are the same. -/
theorem Shows.ext {a : Nat} {l l' : List UInt8} (h : m.Shows a l) (h' : m.Shows a l')
    (hlength : l.length = l'.length) : l = l' := by
  refine List.ext_getElem hlength fun k hk hk' => Option.some.inj ?_
  rw [← h k _ (List.getElem?_eq_getElem hk), ← h' k _ (List.getElem?_eq_getElem hk')]

/-- What was stored is shown. -/
theorem shows_store (m : Memory) {a : Nat} {bytes : List UInt8} (h : a + bytes.length ≤ 4096) :
    (m.store a bytes).Shows a bytes := by
  intro k b hb
  have hk : k < bytes.length := (List.getElem?_eq_some_iff.mp hb).1
  exact m.getElem?_store_of_inside hb (by omega)

/-! ### Reads -/

/-- A read is refused, or brings cells of memory: `extent a n` of them. -/
theorem read_cases (m : Memory) (a n : Int) :
    (checkRange a n = .error (.outOfBounds a n) ∧ m.read a n = .error (.outOfBounds a n)) ∨
      (checkRange a n = .ok () ∧ ∃ bytes, m.read a n = .ok bytes ∧ m.Shows a.toNat bytes ∧
        (bytes.length : Int) = extent a n) := by
  by_cases h : 0 ≤ a ∧ a + n ≤ 4096
  · refine .inr ⟨checkRange_eq_ok_iff.mpr h, _, read_eq_ok_iff.mpr ⟨h.1, h.2, rfl⟩, ?_, ?_⟩
    · exact shows_slice m a.toNat (a + n)
    · exact length_slice_extent m h.1 h.2
  · have hout : a < 0 ∨ 4096 < a + n := by omega
    exact .inl ⟨checkRange_eq_error_iff.mpr ⟨hout, rfl⟩, read_eq_error_iff.mpr ⟨hout, rfl⟩⟩

/-- Bytes are read back exactly if they stand there, within memory. -/
theorem read_length_eq_ok_iff {a : Int} {bytes : List UInt8} : m.read a bytes.length = .ok bytes ↔
    0 ≤ a ∧ a + bytes.length ≤ 4096 ∧ m.Shows a.toNat bytes := by
  rw [read_eq_ok_iff]
  refine and_congr_right fun h0 => and_congr_right fun h1 => ⟨fun h => ?_, fun h => ?_⟩
  · rw [h]
    exact shows_slice m _ _
  · have hlength := length_slice_extent m h0 h1
    rw [extent, if_pos (Int.natCast_nonneg _)] at hlength
    exact h.ext (shows_slice m _ _) (Int.ofNat_inj.mp hlength).symm

/-- A read of a length below zero never brings as many bytes as it asks for. -/
theorem extent_eq_iff {a n : Int} : extent a n = n ↔ 0 ≤ n := by
  rw [extent]
  split
  · rename_i h
    exact iff_of_true rfl h
  · rename_i h
    split <;> omega

/-- A read of an accepted range, of a length that is not below zero, brings the cells of the range. -/
theorem read_of_accepted (m : Memory) {a n : Int} (hcheck : checkRange a n = .ok ()) (hn : 0 ≤ n) :
    ∃ bytes, m.read a n = .ok bytes ∧ (bytes.length : Int) = n ∧
      ∀ k : Nat, (k : Int) < n → bytes[k]? = m[a.toNat + k]? := by
  obtain ⟨herror, -⟩ | ⟨-, bytes, hread, hshows, hlength⟩ := read_cases m a n
  · cases hcheck.symm.trans herror
  · rw [extent_eq_iff.mpr hn] at hlength
    refine ⟨bytes, hread, hlength, fun k hk => ?_⟩
    have hlt : k < bytes.length := by omega
    rw [List.getElem?_eq_getElem hlt, hshows k _ (List.getElem?_eq_getElem hlt)]

/-- A read comes to what it should exactly if the length is not below zero or the range is refused. -/
theorem answers_iff (m : Memory) (a n : Int) :
    m.Answers a n ↔ 0 ≤ n ∨ checkRange a n = .error (.outOfBounds a n) := by
  obtain ⟨hcheck, hread⟩ | ⟨hcheck, bytes, hread, hshows, hlength⟩ := read_cases m a n
  · exact iff_of_true (Or.inl ⟨_, hread, rfl⟩) (.inr hcheck)
  · rw [Answers, hread, hcheck]
    constructor
    · rintro (⟨c, hc, -⟩ | ⟨l, hl, hn, -⟩)
      · cases hc
      · cases hl
        exact .inl (extent_eq_iff.mp (hlength.symm.trans hn))
    · rintro (hn | hc)
      · refine .inr ⟨bytes, rfl, hlength.trans (extent_eq_iff.mpr hn), fun k b hb => ?_⟩
        obtain ⟨h0, h1⟩ := checkRange_eq_ok_iff.mp hcheck
        have hk : k < bytes.length := (List.getElem?_eq_some_iff.mp hb).1
        rw [extent_eq_iff.mpr hn] at hlength
        have hcell : (a + k).toNat = a.toNat + k := by omega
        rw [hcell]
        exact ⟨by omega, by omega, hshows k b hb⟩
      · cases hc

/-- **A read brings what it asks for, or is refused, unless it asks for a length below zero**: the check of
its range does not look at the length. -/
theorem read_answers (m : Memory) (a n : Int) :
    (checkRange a n = .ok () ↔ 0 ≤ a ∧ a + n ≤ 4096) ∧
    (∀ c, m.read a n = .error c ↔ (a < 0 ∨ 4096 < a + n) ∧ c = .outOfBounds a n) ∧
    (m.Answers a n ↔ 0 ≤ n ∨ a < 0 ∨ 4096 < a + n) ∧
    ∀ bytes, m.read a n = .ok bytes → m.Shows a.toNat bytes ∧ (bytes.length : Int) = extent a n := by
  refine ⟨checkRange_eq_ok_iff, fun c => read_eq_error_iff, ?_, fun bytes h => ?_⟩
  · rw [answers_iff, checkRange_eq_error_iff]
    simp only [and_true]
  · obtain ⟨-, herror⟩ | ⟨-, bytes', hread, hbytes'⟩ := read_cases m a n
    · cases herror.symm.trans h
    · cases hread.symm.trans h
      exact hbytes'

/-- One byte less than none, at the start of memory: the range is accepted, and all but the last byte of
memory is brought. -/
theorem read_below_zero :
    checkRange 0 (-1) = .ok () ∧ ¬ fresh.Answers 0 (-1) ∧
      ∃ bytes, fresh.read 0 (-1) = .ok bytes ∧ bytes.length = 4095 := by
  have hcheck : checkRange 0 (-1) = .ok () := checkRange_eq_ok_iff.mpr (by decide)
  refine ⟨hcheck, ?_, ?_⟩
  · rw [answers_iff, hcheck]
    rintro (h | h)
    · exact absurd h (by decide)
    · cases h
  · obtain ⟨herror, -⟩ | ⟨-, bytes, hread, -, hlength⟩ := read_cases fresh 0 (-1)
    · cases hcheck.symm.trans herror
    · exact ⟨bytes, hread, Int.ofNat_inj.mp hlength⟩

end Chip8.Memory
