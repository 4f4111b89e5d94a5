import Chip8.Proofs.Perform

/-!
# Saving and loading registers

After a save and after a load alike, memory holds the registers from the old index on.  As long as it
does, a load brings them back and another save changes nothing.

* `Memory.Holds`                          the registers up to one of them stand in memory;
* `holds_store`, `holds_replaceV`         what saving and loading establish;
* `store_of_holds`, `get_replaceV_of_holds`   what saving and loading do where it is the case already;
* `execute_saveRegisters`, `execute_loadRegisters`   the two instructions where there is room;
* `load_after_save`, `save_after_load`, `save_after_save`   two of them in a row;
* `save_and_load_registers`               the main statement.
-/

namespace Chip8

namespace Memory

/-- The registers up to and with the last one stand in memory from `a` on. -/
def Holds (m : Memory) (a : Nat) (v : Vector UInt8 16) (last : Fin 16) : Prop :=
  ∀ k : Fin 16, k ≤ last → m[a + k.val]? = some (v.get k)

theorem Holds.store {m : Memory} {a b : Nat} {v : Vector UInt8 16} {x : Fin 16} (h : m.Holds a v x)
    {bytes : List UInt8} (hout : a + (x.val + 1) ≤ b) : (m.store b bytes).Holds a v x := by
  intro k hk
  have hlt : k.val < x.val + 1 := Nat.lt_succ_of_le hk
  rw [getElem?_store_of_outside m (by omega)]
  exact h k hk

end Memory

namespace State
open Instruction

/-! ### Registers and bytes -/

theorem getElem?_saved (s : State) {x k : Fin 16} (h : k ≤ x) :
    (s.saved x)[k.val]? = some (s.v.get k) := by
  have hk : k.val < x.val + 1 := Nat.lt_succ_of_le h
  rw [saved, List.getElem?_take_of_lt hk, Vector.getElem?_toList, Vector.getElem?_eq_getElem k.2]
  rfl

/-- A save leaves the registers in memory. -/
theorem holds_store (s : State) (m : Memory) {a : Nat} {x : Fin 16} (h : a + (x.val + 1) ≤ 4096) :
    (m.store a (s.saved x)).Holds a s.v x := by
  intro k hk
  have hlt : k.val < x.val + 1 := Nat.lt_succ_of_le hk
  exact m.getElem?_store_of_inside (s.getElem?_saved hk) (by omega)

/-- Saving what stands there already changes nothing. -/
theorem store_of_holds {s : State} {m : Memory} {a : Nat} {x : Fin 16} (h : m.Holds a s.v x) :
    m.store a (s.saved x) = m := by
  have hlen := s.length_saved x
  refine Vector.ext fun i hi => Option.some.inj ?_
  rw [← Vector.getElem?_eq_getElem hi, ← Vector.getElem?_eq_getElem hi]
  by_cases hin : a ≤ i ∧ i < a + (x.val + 1)
  · obtain ⟨k, rfl⟩ := Nat.exists_eq_add_of_le hin.1
    have hk : (⟨k, by omega⟩ : Fin 16) ≤ x := Fin.le_def.mpr (by show k ≤ x.val; omega)
    have hold : m[a + k]? = some _ := h ⟨k, by omega⟩ hk
    rw [hold]
    exact m.getElem?_store_of_inside (s.getElem?_saved hk) hi
  · exact m.getElem?_store_of_outside (by omega)

theorem get_replaceV (v : Vector UInt8 16) (bytes : List UInt8) (k : Fin 16) :
    (replaceV v bytes).get k = bytes[k.val]?.getD (v.get k) :=
  Vector.getElem_ofFn k.2

section
variable {s : State} {x : Fin 16} (h : s.index.toNat + (x.val + 1) ≤ 4096)
include h

/-- Loading takes the registers up to the last one from memory and leaves the others alone. -/
theorem get_replaceV_atIndex (k : Fin 16) :
    some ((replaceV s.v (s.atIndex (x.val + 1))).get k) =
      if k ≤ x then s.memory[s.index.toNat + k.val]? else some (s.v.get k) := by
  rw [get_replaceV]
  split
  · rename_i hk
    have hlt : k.val < x.val + 1 := Nat.lt_succ_of_le hk
    rw [atIndex, Memory.getElem?_slice _ h hlt, Option.getD_some, Vector.getElem?_eq_getElem]
  · rename_i hk
    have hlen : (s.atIndex (x.val + 1)).length = x.val + 1 := Memory.length_slice _ h
    rw [List.getElem?_eq_none (by omega), Option.getD_none]

/-- A load leaves the registers in memory as well: it took them from there. -/
theorem holds_replaceV : s.memory.Holds s.index.toNat (replaceV s.v (s.atIndex (x.val + 1))) x := by
  intro k hk
  rw [get_replaceV_atIndex h, if_pos hk]

/-- Loading brings back what stands there. -/
theorem get_replaceV_of_holds {v : Vector UInt8 16} (hv : s.memory.Holds s.index.toNat v x)
    (k : Fin 16) : (replaceV s.v (s.atIndex (x.val + 1))).get k =
      if k ≤ x then v.get k else s.v.get k := by
  apply Option.some.inj
  rw [get_replaceV_atIndex h]
  split
  · rename_i hk
    exact hv k hk
  · rfl

end

/-! ### The index -/

@[simp] theorem moveIndex_memory (s : State) (n : Nat) : (s.moveIndex n).memory = s.memory := by
  unfold moveIndex
  split <;> rfl

@[simp] theorem moveIndex_v (s : State) (n : Nat) : (s.moveIndex n).v = s.v := by
  unfold moveIndex
  split <;> rfl

/-- Within memory the index does not wrap. -/
theorem moveIndex_index {s : State} {n : Nat} (h : s.index.toNat + n ≤ 4096) :
    (s.moveIndex n).index.toNat = s.index.toNat + if s.legacy then n else 0 := by
  unfold moveIndex
  split
  · show (s.index + UInt16.ofNat n).toNat = _
    rw [UInt16.toNat_add, UInt16.toNat_ofNat_of_lt' (show n < 65536 by omega)]
    omega
  · rfl

/-! ### One instruction and two in a row -/

section
variable {s c : State} {x : Fin 16} (h : s.index.toNat + (x.val + 1) ≤ 4096)
include h

theorem execute_saveRegisters : ∃ t, s.execute (saveRegisters x).word = .ok t ∧
    t.memory = s.memory.store s.index.toNat (s.saved x) ∧
    t.index.toNat = s.index.toNat + if s.legacy then x.val + 1 else 0 := by
  let saving : State := { s.skip with memory := s.memory.store s.index.toNat (s.saved x) }
  have hrun : s.skip.perform (saveRegisters x) = .ok (saving.moveIndex (x.val + 1)) :=
    (perform_saveRegisters s.skip x).trans (if_neg (Nat.not_lt.mpr h))
  refine ⟨_, execute_eq_ok_iff.mpr ⟨_, rfl, hrun⟩, moveIndex_memory saving _, ?_⟩
  exact moveIndex_index (s := saving) h

theorem execute_loadRegisters : ∃ t, s.execute (loadRegisters x).word = .ok t ∧
    t.memory = s.memory ∧ t.v = replaceV s.v (s.atIndex (x.val + 1)) ∧
    t.index.toNat = s.index.toNat + if s.legacy then x.val + 1 else 0 := by
  let loading : State := { s.skip with v := replaceV s.v (s.atIndex (x.val + 1)) }
  have hrun : s.skip.perform (loadRegisters x) = .ok (loading.moveIndex (x.val + 1)) :=
    (perform_loadRegisters s.skip x).trans (if_neg (Nat.not_lt.mpr h))
  refine ⟨_, execute_eq_ok_iff.mpr ⟨_, rfl, hrun⟩, moveIndex_memory loading _, moveIndex_v loading _, ?_⟩
  exact moveIndex_index (s := loading) h

theorem load_after_save (hm : c.memory = s.memory.store s.index.toNat (s.saved x))
    (hi : c.index = s.index) : ∃ t, c.execute (loadRegisters x).word = .ok t ∧
      ∀ k, t.v.get k = if k ≤ x then s.v.get k else c.v.get k := by
  rw [← hi] at h hm
  obtain ⟨t, ht, -, hv, -⟩ := execute_loadRegisters h
  have hold : c.memory.Holds c.index.toNat s.v x := hm ▸ s.holds_store s.memory h
  refine ⟨t, ht, fun k => ?_⟩
  rw [hv]
  exact get_replaceV_of_holds h hold k

theorem save_after_load (hm : c.memory = s.memory)
    (hv : c.v = replaceV s.v (s.atIndex (x.val + 1))) (hi : c.index = s.index) :
    ∃ t, c.execute (saveRegisters x).word = .ok t ∧ t.memory = s.memory := by
  obtain ⟨t, ht, hmem, -⟩ := execute_saveRegisters (s := c) (hi ▸ h)
  have hold : s.memory.Holds s.index.toNat c.v x := hv ▸ holds_replaceV h
  refine ⟨t, ht, ?_⟩
  rw [hmem, hm, hi]
  exact store_of_holds hold

end

section
variable {s c : State} {x z : Fin 16} (h : s.index.toNat + (x.val + 1) + (z.val + 1) ≤ 4096)
include h

/-- The second block stands behind the first one and leaves it alone. -/
theorem save_after_save (hm : c.memory = s.memory.store s.index.toNat (s.saved x))
    (hi : c.index.toNat = s.index.toNat + (x.val + 1)) (hl : c.legacy = true) :
    ∃ t, c.execute (saveRegisters z).word = .ok t ∧
      t.index.toNat = s.index.toNat + (x.val + 1) + (z.val + 1) ∧
      t.memory.Holds s.index.toNat s.v x ∧
      t.memory.Holds (s.index.toNat + (x.val + 1)) c.v z ∧
      ∀ i, i < s.index.toNat ∨ s.index.toNat + (x.val + 1) + (z.val + 1) ≤ i →
        t.memory[i]? = s.memory[i]? := by
  obtain ⟨t, ht, hmem, hindex⟩ := execute_saveRegisters (s := c) (hi ▸ h)
  rw [hi] at hmem
  rw [hi, if_pos hl] at hindex
  have hfirst : c.memory.Holds s.index.toNat s.v x := by
    rw [hm]
    exact s.holds_store s.memory (by omega)
  refine ⟨t, ht, hindex, ?_, ?_, fun i hout => ?_⟩
  · rw [hmem]
    exact hfirst.store (Nat.le_refl _)
  · rw [hmem]
    exact c.holds_store c.memory h
  · have h1 := s.length_saved x
    have h2 := c.length_saved z
    rw [hmem, Memory.getElem?_store_of_outside _ (by omega), hm,
      Memory.getElem?_store_of_outside _ (by omega)]

end

/-- **Saving and loading registers undo each other**, in either mode and wherever `X + 1` bytes are left from
the index on.  In legacy mode a second save puts its block behind that of the first one. -/
theorem save_and_load_registers (s : State) (x : Fin 16) (h : s.index.toNat + x.val + 1 ≤ 4096) :
    ∃ a b, s.execute (saveRegisters x).word = .ok a ∧ s.execute (loadRegisters x).word = .ok b ∧
      a.memory.Holds s.index.toNat s.v x ∧
      (∀ i, i < s.index.toNat ∨ s.index.toNat + x.val + 1 ≤ i → a.memory[i]? = s.memory[i]?) ∧
      b.memory = s.memory ∧
      a.index.toNat = s.index.toNat + (if s.legacy then x.val + 1 else 0) ∧
      b.index.toNat = s.index.toNat + (if s.legacy then x.val + 1 else 0) ∧
      -- a load at the old index after the save, and a save there after the load
      (∀ c : State, c.memory = a.memory → c.index = s.index →
        ∃ t, c.execute (loadRegisters x).word = .ok t ∧
          ∀ k, t.v.get k = if k ≤ x then s.v.get k else c.v.get k) ∧
      (∀ c : State, c.memory = b.memory → c.v = b.v → c.index = s.index →
        ∃ t, c.execute (saveRegisters x).word = .ok t ∧ t.memory = s.memory) ∧
      -- a second save directly after the first one
      (s.legacy = true → ∀ (c : State) (z : Fin 16), c.memory = a.memory → c.index = a.index →
        c.legacy = true → s.index.toNat + (x.val + 1) + (z.val + 1) ≤ 4096 →
        ∃ t, c.execute (saveRegisters z).word = .ok t ∧
          t.index.toNat = s.index.toNat + (x.val + 1) + (z.val + 1) ∧
          t.memory.Holds s.index.toNat s.v x ∧
          t.memory.Holds (s.index.toNat + (x.val + 1)) c.v z ∧
          ∀ i, i < s.index.toNat ∨ s.index.toNat + (x.val + 1) + (z.val + 1) ≤ i →
            t.memory[i]? = s.memory[i]?) := by
  have hroom : s.index.toNat + (x.val + 1) ≤ 4096 := h
  obtain ⟨a, ha, hma, hia⟩ := execute_saveRegisters hroom
  obtain ⟨b, hb, hmb, hvb, hib⟩ := execute_loadRegisters hroom
  refine ⟨a, b, ha, hb, ?_, fun i hout => ?_, hmb, hia, hib, ?_, ?_, ?_⟩
  · rw [hma]
    exact s.holds_store s.memory hroom
  · have hlen := s.length_saved x
    rw [hma, Memory.getElem?_store_of_outside _ (by omega)]
  · intro c hm hi
    exact load_after_save hroom (hm.trans hma) hi
  · intro c hm hv hi
    exact save_after_load hroom (hm.trans hmb) (hv.trans hvb) hi
  · intro hl c z hm hi hlc hroom'
    rw [if_pos hl] at hia
    exact save_after_save hroom' (hm.trans hma) (hi ▸ hia) hlc

/-- The last sixteen bytes of memory, in legacy mode: the index ends up behind the last byte. -/
theorem save_and_load_registers_at_end :
    let s := { initial ⟨0, 0⟩ true with index := 0xFF0, v := .ofFn fun k => UInt8.ofNat (k + 1) }
    s.index.toNat + (15 : Fin 16).val + 1 ≤ 4096 ∧
      ∃ a, s.execute 0xFF55 = .ok a ∧ a.index.toNat = 0x1000 ∧ a.memory[0xFFF] = 16 ∧
        ∃ t, { initial ⟨0, 0⟩ false with memory := a.memory, index := 0xFF0 }.execute 0xFF65 = .ok t ∧
          t.v = s.v := by
  intro s
  have hroom : s.index.toNat + (15 : Fin 16).val + 1 ≤ 4096 := by decide
  obtain ⟨a, -, ha, -, hblock, -, -, hia, -, hload, -⟩ := save_and_load_registers s 15 hroom
  obtain ⟨t, ht, hv⟩ := hload { initial ⟨0, 0⟩ false with memory := a.memory, index := 0xFF0 } rfl rfl
  have hlast : a.memory[0xFFF]? = some (s.v.get 15) := hblock 15 (by decide)
  have hvalue : s.v.get 15 = 16 := by decide
  refine ⟨hroom, a, ha, hia, ?_, t, ht, Vector.ext fun k hk => ?_⟩
  · rw [hvalue, Vector.getElem?_eq_getElem (by decide)] at hlast
    exact Option.some.inj hlast
  · exact (hv ⟨k, hk⟩).trans (if_pos (Fin.le_last _))

end State

end Chip8
