import Chip8.Fault

/-!
# Memory

The 4096 bytes of the address space.  Addresses and lengths come as integers of any size; a range is
checked before it is touched, and a refused access changes nothing.
-/

namespace Chip8

/-- The address space. -/
abbrev Memory := Vector UInt8 4096

namespace Memory

abbrev size : Nat := 4096

/-- Programs are loaded here. -/
abbrev programStart : Nat := 0x200

abbrev maxProgramSize : Nat := 3584

/-- Refuse a range that starts below zero or ends beyond the last byte. -/
def checkRange (address length : Int) : Except Cause Unit :=
  if address < 0 ∨ size < address + length then .error (.outOfBounds address length) else .ok ()

/-- The cells from `start` up to, and without, `stop`.  A `stop` below zero is counted from the end of
memory; a range that ends before it starts is empty. -/
def slice (m : Memory) (start : Nat) (stop : Int) : List UInt8 :=
  let stop := if stop < 0 then stop + size else stop
  (m.toArray.extract start stop.toNat).toList

/-- Read `length` bytes from `address` on. -/
def read (m : Memory) (address length : Int) : Except Cause (List UInt8) := do
  checkRange address length
  return m.slice address.toNat (address + length)

/-- Put `bytes` into the cells from `address` on. -/
def store (m : Memory) (address : Nat) : List UInt8 → Memory
  | [] => m
  | b :: bs => store (m.setIfInBounds address b) (address + 1) bs

def write (m : Memory) (address : Int) (bytes : List UInt8) : Except Cause Memory := do
  checkRange address bytes.length
  return m.store address.toNat bytes

/-- Copy a program to `0x200`. -/
def load (m : Memory) (program : List UInt8) : Except Cause Memory :=
  if maxProgramSize < program.length then .error (.programTooLarge program.length)
  else m.write programStart program

/-! ### Which accesses are refused -/

theorem checkRange_eq_ok_iff {a n : Int} :
    checkRange a n = .ok () ↔ 0 ≤ a ∧ a + n ≤ 4096 := by
  have hs : ((size : Nat) : Int) = 4096 := rfl
  unfold checkRange
  split
  · rename_i h
    simp only [reduceCtorEq, false_iff]
    omega
  · rename_i h
    simp only [true_iff]
    omega

theorem checkRange_eq_error_iff {a n : Int} {c : Cause} :
    checkRange a n = .error c ↔ (a < 0 ∨ 4096 < a + n) ∧ c = .outOfBounds a n := by
  unfold checkRange
  split
  · rename_i h
    have h' : a < 0 ∨ 4096 < a + n := h
    simp [h', eq_comm]
  · rename_i h
    have h' : ¬ (a < 0 ∨ 4096 < a + n) := h
    simp [h']

theorem read_eq_ok_iff {m : Memory} {a n : Int} {bytes : List UInt8} :
    m.read a n = .ok bytes ↔ 0 ≤ a ∧ a + n ≤ 4096 ∧ bytes = m.slice a.toNat (a + n) := by
  rw [read, bind_eq_ok_iff]
  constructor
  · rintro ⟨_, hr, h⟩
    obtain ⟨h0, h1⟩ := checkRange_eq_ok_iff.mp hr
    exact ⟨h0, h1, (Except.ok.inj h).symm⟩
  · rintro ⟨h0, h1, h⟩
    exact ⟨(), checkRange_eq_ok_iff.mpr ⟨h0, h1⟩, congrArg Except.ok h.symm⟩

theorem read_eq_error_iff {m : Memory} {a n : Int} {c : Cause} :
    m.read a n = .error c ↔ (a < 0 ∨ 4096 < a + n) ∧ c = .outOfBounds a n := by
  rw [read, bind_eq_error_iff, checkRange_eq_error_iff]
  simp [pure, Except.pure]

theorem write_eq_error_iff {m : Memory} {a : Int} {bytes : List UInt8} {c : Cause} :
    m.write a bytes = .error c ↔
      (a < 0 ∨ 4096 < a + bytes.length) ∧ c = .outOfBounds a bytes.length := by
  rw [write, bind_eq_error_iff, checkRange_eq_error_iff]
  simp [pure, Except.pure]

theorem write_eq_ok {m m' : Memory} {a : Int} {bytes : List UInt8}
    (h : m.write a bytes = .ok m') :
    0 ≤ a ∧ a + bytes.length ≤ 4096 ∧ m' = m.store a.toNat bytes := by
  unfold write at h
  cases hc : checkRange a bytes.length with
  | error e => simp [hc, bind, Except.bind] at h
  | ok u =>
    obtain ⟨h₁, h₂⟩ := checkRange_eq_ok_iff.mp hc
    simp [hc, bind, Except.bind, pure, Except.pure] at h
    exact ⟨h₁, h₂, h.symm⟩

theorem read_natCast (m : Memory) (a n : Nat) : m.read a n =
    if 4096 < a + n then .error (.outOfBounds a n) else .ok (m.slice a ((a : Int) + n)) := by
  split
  · rename_i h
    exact read_eq_error_iff.mpr ⟨by omega, rfl⟩
  · rename_i h
    exact read_eq_ok_iff.mpr ⟨by omega, by omega, rfl⟩

theorem write_natCast (m : Memory) (a : Nat) (bytes : List UInt8) : m.write a bytes =
    if 4096 < a + bytes.length then .error (.outOfBounds a bytes.length)
    else .ok (m.store a bytes) := by
  split
  · rename_i h
    exact write_eq_error_iff.mpr ⟨by omega, rfl⟩
  · rename_i h
    have hc : checkRange a bytes.length = .ok () := checkRange_eq_ok_iff.mpr ⟨by omega, by omega⟩
    rw [write, hc]
    rfl

/-! ### What a slice holds -/

theorem slice_natCast (m : Memory) (a n : Nat) :
    m.slice a ((a : Int) + n) = (m.toArray.extract a (a + n)).toList := by
  have h : ¬ ((a : Int) + n < 0) := by omega
  rw [slice]
  simp only [if_neg h]
  rfl

theorem length_slice (m : Memory) {a n : Nat} (h : a + n ≤ 4096) :
    (m.slice a ((a : Int) + n)).length = n := by
  rw [slice_natCast]
  simp
  omega

theorem getElem?_slice (m : Memory) {a n i : Nat} (h : a + n ≤ 4096) (hi : i < n) :
    (m.slice a ((a : Int) + n))[i]? = some m[a + i] := by
  rw [slice_natCast, Array.getElem?_toList, Array.getElem?_extract, if_pos (by simp; omega),
    Array.getElem?_eq_getElem (by simp; omega)]
  rfl

theorem slice_two (m : Memory) {a : Nat} (h : a + 1 < 4096) :
    m.slice a ((a : Int) + 2) = [m[a], m[a + 1]] := by
  have h0 : (m.slice a ((a : Int) + 2))[0]? = some m[a] :=
    getElem?_slice m (n := 2) (i := 0) (by omega) (by omega)
  have h1 : (m.slice a ((a : Int) + 2))[1]? = some m[a + 1] :=
    getElem?_slice m (n := 2) (i := 1) (by omega) (by omega)
  have hl : (m.slice a ((a : Int) + 2)).length = 2 := length_slice m (n := 2) (by omega)
  generalize m.slice a ((a : Int) + 2) = l at h0 h1 hl
  match l, hl with
  | [x, y], _ =>
    cases h0
    cases h1
    rfl

/-! ### What a store leaves in each cell -/

theorem getElem_store (m : Memory) (a : Nat) (bytes : List UInt8) (i : Nat) (hi : i < 4096) :
    (m.store a bytes)[i] = if a ≤ i then bytes[i - a]?.getD m[i] else m[i] := by
  induction bytes generalizing m a with
  | nil => simp [store]
  | cons b bs ih =>
    rw [store, ih]
    by_cases ha : a = i
    · subst ha
      rw [if_neg (by omega), if_pos (Nat.le_refl a)]
      simp
    · rw [Vector.getElem_setIfInBounds, if_neg ha]
      by_cases h : a ≤ i
      · have hk : i - a = i - (a + 1) + 1 := by omega
        rw [if_pos (by omega), if_pos h, hk, List.getElem?_cons_succ]
      · rw [if_neg (by omega), if_neg h]

theorem getElem?_store_of_outside (m : Memory) {a : Nat} {bytes : List UInt8} {i : Nat}
    (h : i < a ∨ a + bytes.length ≤ i) : (m.store a bytes)[i]? = m[i]? := by
  by_cases hi : i < 4096
  · rw [Vector.getElem?_eq_getElem hi, Vector.getElem?_eq_getElem hi, getElem_store]
    split
    · have hnone : bytes[i - a]? = none := List.getElem?_eq_none (by omega)
      rw [hnone, Option.getD_none]
    · rfl
  · rw [Vector.getElem?_eq_none (by omega), Vector.getElem?_eq_none (by omega)]

theorem getElem?_store_of_inside (m : Memory) {a : Nat} {bytes : List UInt8} {k : Nat} {b : UInt8}
    (h : bytes[k]? = some b) (hi : a + k < 4096) : (m.store a bytes)[a + k]? = some b := by
  rw [Vector.getElem?_eq_getElem hi, getElem_store, if_pos (Nat.le_add_right a k),
    Nat.add_sub_cancel_left, h, Option.getD_some]

end Memory

end Chip8
