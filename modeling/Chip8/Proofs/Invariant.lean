import Chip8.Proofs.Frame
import Chip8.Proofs.Runs

/-!
# What every run keeps

* `Display.Binary`    the cells of the display are zero or one;
* `CallStack.Sound`   the slots in use hold addresses behind a word in memory, the others nothing;
* `State.Sound`       both of these, and a bound on the program counter.

The bounds need each other: a return goes where a slot says, and a call puts the address behind its
own word into a slot, which is in memory because the word was fetched.  The main statement is
`reachable_sound`.
-/

namespace Chip8

/-! ### The display -/

namespace Display

def Binary (d : Display) : Prop := ∀ r c, d.cell r c = 0 ∨ d.cell r c = 1

theorem and_one_cases (b : UInt8) : b &&& 1 = 0 ∨ b &&& 1 = 1 := by
  have h := Number.toNat_and_one b
  rcases Nat.mod_two_eq_zero_or_one b.toNat with h0 | h1
  · exact .inl (UInt8.toNat_inj.mp (h.trans h0))
  · exact .inr (UInt8.toNat_inj.mp (h.trans h1))

theorem binary_blank : blank.Binary := fun r c => .inl (cell_blank r c)

theorem binary_mask (sprite : List UInt8) (x y : Int32) : (mask sprite x y).Binary := by
  intro r c
  rw [mask, cell_ofFn, spriteAt]
  split
  · exact and_one_cases _
  · exact .inl rfl

theorem Binary.flip {d m : Display} (hd : d.Binary) (hm : m.Binary) : (d.flip m).Binary := by
  intro r c
  rw [cell_flip]
  rcases hd r c with h | h <;> rcases hm r c with h' | h' <;> rw [h, h'] <;> decide

end Display

/-! ### The call stack -/

namespace CallStack

structure Sound (c : CallStack) : Prop where
  depth_le : c.depth ≤ 16
  cleared : ∀ k (hk : k < 16), c.depth ≤ k → c.slots[k] = 0
  inMemory : ∀ k (hk : k < 16), k < c.depth → 2 ≤ c.slots[k].toNat ∧ c.slots[k].toNat ≤ 0x1000

theorem getElem_append (c : CallStack) (a : UInt16) {k : Nat} (hk : k < 16) :
    (c.append a).slots[k] = if c.depth = k then a else c.slots[k] :=
  Vector.getElem_setIfInBounds hk

theorem getElem_dropTop (c : CallStack) {k : Nat} (hk : k < 16) :
    c.dropTop.slots[k] = if c.depth - 1 = k then 0 else c.slots[k] :=
  Vector.getElem_setIfInBounds hk

theorem top_eq (c : CallStack) (h : c.depth - 1 < 16) : c.top = c.slots[c.depth - 1] := by
  simp [top, h]

theorem sound_empty : empty.Sound where
  depth_le := Nat.zero_le _
  cleared _ hk _ := Vector.getElem_replicate hk
  inMemory k _ h := absurd h (Nat.not_lt_zero k)

variable {c : CallStack}

theorem Sound.append (h : c.Sound) (hd : c.depth < 16) {a : UInt16}
    (ha : 2 ≤ a.toNat ∧ a.toNat ≤ 0x1000) : (c.append a).Sound where
  depth_le := hd
  cleared k hk hle := by
    have hlt : c.depth < k := hle
    rw [getElem_append, if_neg (by omega)]
    exact h.cleared k hk (by omega)
  inMemory k hk hlt := by
    have hle : k < c.depth + 1 := hlt
    rw [getElem_append]
    split
    · exact ha
    · exact h.inMemory k hk (by omega)

theorem Sound.dropTop (h : c.Sound) : c.dropTop.Sound where
  depth_le := Nat.le_trans (Nat.sub_le _ _) h.depth_le
  cleared k hk hle := by
    have hle' : c.depth - 1 ≤ k := hle
    rw [getElem_dropTop]
    split
    · rfl
    · exact h.cleared k hk (by omega)
  inMemory k hk hlt := by
    have hlt' : k < c.depth - 1 := hlt
    rw [getElem_dropTop, if_neg (by omega)]
    exact h.inMemory k hk (by omega)

theorem Sound.top_le (h : c.Sound) : c.top.toNat ≤ 0x1000 := by
  have hd := h.depth_le
  rw [top_eq c (by omega)]
  by_cases h0 : c.depth = 0
  · rw [h.cleared _ _ (by omega)]
    exact Nat.zero_le _
  · exact (h.inMemory _ _ (by omega)).2

end CallStack

/-! ### The state -/

namespace State
open Instruction

structure Sound (s : State) : Prop where
  display : s.display.Binary
  stack : s.stack.Sound
  pc_le : s.pc.toNat ≤ 0x10FE

variable {s t : State}

theorem sound_initial (rng : RandomKey) (legacy : Bool) : (initial rng legacy).Sound where
  display := Display.binary_blank
  stack := CallStack.sound_empty
  pc_le := show (0x200 : UInt16).toNat ≤ 0x10FE by decide

theorem skip_toNat (h : s.pc.toNat + 2 < 65536) : s.skip.pc.toNat = s.pc.toNat + 2 := by
  rw [skip_pc, UInt16.toNat_ofNat_of_lt' h]

/-- From a word in memory, no instruction leads further than `BFFF` does. -/
theorem Sound.next_le (h : s.Sound) (hpc : s.pc.toNat + 1 < 4096) (i : Instruction) :
    i.next s ≤ 0x10FE := by
  cases i with
  | jump a | call a =>
    show a.val ≤ _
    omega
  | jumpOffset a =>
    have hv := (s.v.get 0).toNat_lt
    show a.val + (s.v.get 0).toNat ≤ _
    omega
  | «return» =>
    have ht := h.stack.top_le
    show s.stack.top.toNat ≤ _
    omega
  | awaitKey x =>
    show (if s.keys.any then _ else _) ≤ _
    split <;> omega
  | _ =>
    show s.pc.toNat + (if _ then 4 else 2) ≤ _
    split <;> omega

/-- A step goes where the instruction says, without a wrap, and keeps the invariant. -/
theorem Sound.step (h : s.Sound) {w : UInt16} (hs : s.step = .ok (t, w)) :
    t.Sound ∧ ∃ i : Instruction, i.word = w.toNat ∧ t.pc.toNat = i.next s := by
  obtain ⟨hf, he⟩ := step_eq_ok_iff.mp hs
  obtain ⟨hpc, -⟩ := fetch_eq_ok_iff.mp hf
  obtain ⟨i, hw, hp⟩ := execute_eq_ok_iff.mp he
  have hle := h.next_le hpc i
  have hnext : t.pc.toNat = i.next s := by
    rw [perform_skip_pc hp, UInt16.toNat_ofNat_of_lt' (by show _ < 65536; omega)]
  have hskip := skip_toNat (s := s) (by omega)
  refine ⟨⟨?_, ?_, by omega⟩, i, Int.ofNat.inj hw, hnext⟩
  · rcases perform_display_cases hp with hd | hd | ⟨sprite, x, y, hd⟩ <;> rw [hd]
    · exact h.display
    · exact Display.binary_blank
    · exact h.display.flip (Display.binary_mask sprite x y)
  · rcases perform_stack_cases hp with hc | ⟨a, rfl, hd, hc⟩ | ⟨rfl, hd, hc, -⟩ <;> rw [hc]
    · exact h.stack
    · exact h.stack.append hd (by omega)
    · exact h.stack.dropTop

theorem Sound.act (h : s.Sound) (a : Action) : (s.act a).Sound := by
  cases a with
  | step =>
    rcases act_step_cases s with ⟨w, hs⟩ | he
    · exact (h.step hs).1
    · rw [he]
      exact h
  | tick => exact ⟨h.display, h.stack, h.pc_le⟩
  | snapshot keys => exact ⟨h.display, h.stack, h.pc_le⟩
  | load program =>
    obtain ⟨m, hm⟩ := act_load s program
    rw [hm]
    exact ⟨h.display, h.stack, h.pc_le⟩

theorem Reachable.sound (h : s.Reachable) : s.Sound :=
  h.induction sound_initial fun _ a ht => ht.act a

/-- **Every run keeps the machine well formed**, in either mode and whatever the random key.  The program
counter is at most `0x10FE`, so it does not wrap: a step leaves it at the very number that its
instruction says. -/
theorem reachable_sound (rng : RandomKey) (legacy : Bool) (actions : List Action) :
    let s := (initial rng legacy).after actions
    (∀ r c, s.display.cell r c = 0 ∨ s.display.cell r c = 1) ∧
    s.stack.depth ≤ 16 ∧
    (∀ k : Fin 16, s.stack.depth ≤ k.val → s.stack.slots[k] = 0) ∧
    (∀ k : Fin 16, k.val < s.stack.depth →
      0x002 ≤ s.stack.slots[k].toNat ∧ s.stack.slots[k].toNat ≤ 0x1000) ∧
    s.pc.toNat ≤ 0x10FE ∧
    s.skip.pc.toNat = s.pc.toNat + 2 ∧
    s.skip.skip.pc.toNat = s.pc.toNat + 4 ∧
    (s.skip.pc - 2).toNat + 2 = s.skip.pc.toNat ∧
    ∀ t w, s.step = .ok (t, w) →
      ∃ i : Instruction, i.word = w.toNat ∧ t.pc.toNat = i.next s := by
  intro s
  have h : s.Sound := Reachable.sound ⟨rng, legacy, actions, rfl⟩
  have hpc := h.pc_le
  have h1 : s.skip.pc.toNat = s.pc.toNat + 2 := skip_toNat (by omega)
  have h2 : s.skip.skip.pc.toNat = s.skip.pc.toNat + 2 := skip_toNat (by omega)
  have hback : s.skip.pc - 2 = s.pc := UInt16.add_sub_cancel _ _
  exact ⟨h.display, h.stack.depth_le, fun k => h.stack.cleared k k.2,
    fun k => h.stack.inMemory k k.2, hpc, h1, by omega, by rw [hback, h1], fun t w hs => (h.step hs).2⟩

/-- `60FF BFFF` reaches the bound. -/
theorem reachable_sound_at_bound :
    let s := (initial ⟨0, 0⟩ false).after [.load [0x60, 0xFF, 0xBF, 0xFF], .step]
    ∃ t, s.step = .ok (t, 0xBFFF) ∧ t.pc.toNat = 0x10FE ∧
      ∃ i : Instruction, i.word = 0xBFFF ∧ i.next s = 0x10FE := by
  intro s
  have hw : s.step.map (·.2) = .ok 0xBFFF := by decide +kernel
  have hpc : (s.act .step).pc.toNat = 0x10FE := by decide +kernel
  obtain ⟨w, hs⟩ | he := act_step_cases s
  · rw [hs] at hw
    obtain rfl : w = 0xBFFF := Except.ok.inj hw
    obtain ⟨i, hi, hn⟩ := (reachable_sound ⟨0, 0⟩ false _).2.2.2.2.2.2.2.2 _ _ hs
    exact ⟨_, hs, hpc, i, hi, by rw [← hn, hpc]⟩
  · have hs : s.pc.toNat = 0x202 := by decide +kernel
    rw [he, hs] at hpc
    cases hpc

end State

end Chip8
