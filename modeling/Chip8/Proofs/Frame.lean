import Chip8.Proofs.Opcode
import Chip8.Proofs.Perform

/-!
# What an instruction changes

* `Instruction.next`     the address of the word after an instruction, as a number;
* `Instruction.Writes`   the parts of the state that an instruction may change;
* `Frame i s t`          `t` differs from `s` at most in the program counter and in what `i` writes.

`Frame` is closed under the updates that the instruction is allowed, so that the frame of an
instruction is read off its definition.  The main statement is `execute_next_frame`.
-/

namespace Chip8

/-- The parts of a state other than the program counter, the key snapshot and the mode. -/
inductive Part where
  | rng
  | memory (address : Nat)
  | display
  | stack
  | delay
  | sound
  | index
  | register (k : Fin 16)
  deriving DecidableEq, Repr

/-- The operations that leave a carry, a borrow or a bit shifted out in the flag register. -/
def Arith.setsFlag : Arith → Bool
  | .set | .or | .and | .xor => false
  | .add | .sub | .subFrom | .shiftRight | .shiftLeft => true

namespace Instruction

/-- The condition of a skip, and `false` for the other instructions. -/
def skips (s : State) : Instruction → Bool
  | skipIfEqual x value => s.v.get x == value
  | skipUnlessEqual x value => s.v.get x != value
  | skipIfSame x y => s.v.get x == s.v.get y
  | skipUnlessSame x y => s.v.get x != s.v.get y
  | skipIfKey x => s.keys[(s.v.get x).toNat]? == some true
  | skipUnlessKey x => s.keys[(s.v.get x).toNat]? == some false
  | _ => false

/-- Where the next word is fetched, before the address is cut to sixteen bits. -/
def next (s : State) : Instruction → Nat
  | jump a | call a => a
  | jumpOffset a => a + (s.v.get 0).toNat
  | .return => s.stack.top.toNat
  | awaitKey _ => if s.keys.any then s.pc.toNat + 2 else s.pc.toNat
  | i => s.pc.toNat + if i.skips s then 4 else 2

/-- What an instruction may change. -/
def Writes (s : State) : Instruction → Part → Prop
  | clearScreen, .display => True
  | .return, .stack | call _, .stack => True
  | set x _, .register k | add x _, .register k => k = x
  | arith op x _, .register k => k = x ∨ op.setsFlag ∧ k = State.flag
  | setIndex _, .index => True
  | random _ _, .rng => True
  | random x _, .register k => k = x
  | draw _ _ _, .display => True
  | draw _ _ _, .register k => k = State.flag
  | readDelay x, .register k => k = x
  | awaitKey x, .register k => s.keys.any ∧ k = x
  | setDelay _, .delay => True
  | setSound _, .sound => True
  | addIndex _, .index | glyph _, .index => True
  | digits _, .memory a => s.index.toNat ≤ a ∧ a < s.index.toNat + 3
  | saveRegisters x, .memory a => s.index.toNat ≤ a ∧ a < s.index.toNat + (x.val + 1)
  | loadRegisters x, .register k => k ≤ x
  | saveRegisters _, .index | loadRegisters _, .index => s.legacy
  | _, _ => False

end Instruction

/-- Outside of what the instruction writes, and of the program counter, nothing has changed. -/
structure Frame (i : Instruction) (s t : State) : Prop where
  rng : ¬ i.Writes s .rng → t.rng = s.rng
  memory : ∀ a (h : a < 4096), ¬ i.Writes s (.memory a) → t.memory[a] = s.memory[a]
  display : ¬ i.Writes s .display → t.display = s.display
  stack : ¬ i.Writes s .stack → t.stack = s.stack
  delay : ¬ i.Writes s .delay → t.delay = s.delay
  sound : ¬ i.Writes s .sound → t.sound = s.sound
  index : ¬ i.Writes s .index → t.index = s.index
  register : ∀ k : Fin 16, ¬ i.Writes s (.register k) → t.v.get k = s.v.get k
  keys : t.keys = s.keys
  legacy : t.legacy = s.legacy

/-! ### Updates that an instruction is allowed -/

namespace Frame
variable {i : Instruction} {s t : State}

theorem same : Frame i s s where
  rng _ := rfl
  memory _ _ _ := rfl
  display _ := rfl
  stack _ := rfl
  delay _ := rfl
  sound _ := rfl
  index _ := rfl
  register _ _ := rfl
  keys := rfl
  legacy := rfl

theorem withPc (h : Frame i s t) (a : UInt16) : Frame i s { t with pc := a } :=
  { h with }

theorem withRng (h : Frame i s t) (hw : i.Writes s .rng) (k : RandomKey) :
    Frame i s { t with rng := k } :=
  { h with rng := fun hn => absurd hw hn }

theorem withDisplay (h : Frame i s t) (hw : i.Writes s .display) (d : Display) :
    Frame i s { t with display := d } :=
  { h with display := fun hn => absurd hw hn }

theorem withStack (h : Frame i s t) (hw : i.Writes s .stack) (c : CallStack) :
    Frame i s { t with stack := c } :=
  { h with stack := fun hn => absurd hw hn }

theorem withDelay (h : Frame i s t) (hw : i.Writes s .delay) (b : UInt8) :
    Frame i s { t with delay := b } :=
  { h with delay := fun hn => absurd hw hn }

theorem withSound (h : Frame i s t) (hw : i.Writes s .sound) (b : UInt8) :
    Frame i s { t with sound := b } :=
  { h with sound := fun hn => absurd hw hn }

theorem withIndex (h : Frame i s t) (hw : i.Writes s .index) (a : UInt16) :
    Frame i s { t with index := a } :=
  { h with index := fun hn => absurd hw hn }

theorem setV (h : Frame i s t) {x : Fin 16} (hw : i.Writes s (.register x)) (b : UInt8) :
    Frame i s (t.setV x b) :=
  { h with
    register := fun k hk => by
      have hne : k ≠ x := fun e => hk (e ▸ hw)
      show (t.setV x b).v.get k = s.v.get k
      rw [State.getV_setV_of_ne t hne, h.register k hk] }

theorem store (h : Frame i s t) {a : Nat} {bytes : List UInt8}
    (hw : ∀ j, a ≤ j → j < a + bytes.length → i.Writes s (.memory j)) :
    Frame i s { t with memory := t.memory.store a bytes } :=
  { h with
    memory := fun j hj hn => by
      show (t.memory.store a bytes)[j] = s.memory[j]
      rw [Memory.getElem_store]
      split
      · rename_i haj
        have hout : bytes[j - a]? = none := by
          rw [List.getElem?_eq_none_iff]
          by_contra hlt
          exact hn (hw j haj (by omega))
        rw [hout]
        exact h.memory j hj hn
      · exact h.memory j hj hn }

theorem replaceV (h : Frame i s t) {bytes : List UInt8}
    (hw : ∀ k : Fin 16, k.val < bytes.length → i.Writes s (.register k)) :
    Frame i s { t with v := State.replaceV t.v bytes } :=
  { h with
    register := fun k hk => by
      have hout : bytes[k.val]? = none := by
        rw [List.getElem?_eq_none_iff]
        by_contra hlt
        exact hk (hw k (by omega))
      show (State.replaceV t.v bytes).get k = s.v.get k
      rw [← h.register k hk]
      refine (Vector.getElem_ofFn k.2).trans ?_
      rw [hout]
      rfl }

theorem moveIndex (h : Frame i s t) (hw : s.legacy = true → i.Writes s .index) (n : Nat) :
    Frame i s (t.moveIndex n) := by
  unfold State.moveIndex
  split
  · rename_i hl
    exact h.withIndex (hw (h.legacy ▸ hl)) _
  · exact h

theorem skipIf (h : Frame i s t) (c : Bool) : Frame i s (t.skipIf c) := by
  cases c with
  | false => exact h
  | true => exact h.withPc _

end Frame

namespace State
open Instruction
variable {s t : State} {i : Instruction}

theorem arith_frame (s : State) (op : Arith) (x y : Fin 16) :
    Frame (.arith op x y) s (s.arith op x y) := by
  have hx : (Instruction.arith op x y).Writes s (.register x) := .inl rfl
  have hf (h : op.setsFlag = true) : (Instruction.arith op x y).Writes s (.register flag) :=
    .inr ⟨h, rfl⟩
  cases op with
  | set | or | and | xor => exact Frame.same.setV hx _
  | add | sub | subFrom | shiftRight | shiftLeft => exact (Frame.same.setV hx _).setV (hf rfl) _

/-- An instruction that succeeds stays within its frame. -/
theorem perform_frame (h : s.perform i = .ok t) : Frame i s t := by
  have same : Frame i s s := .same
  cases i with
  | clearScreen =>
    cases h
    exact same.withDisplay trivial _
  | «return» =>
    rw [perform_return] at h
    split at h <;> cases h
    exact (same.withStack trivial s.stack.dropTop).withPc _
  | jump a =>
    cases h
    exact same.withPc _
  | call a =>
    rw [perform_call] at h
    split at h <;> cases h
    exact (same.withStack trivial (s.stack.append s.pc)).withPc _
  | skipIfEqual x k | skipUnlessEqual x k =>
    cases h
    exact same.skipIf _
  | skipIfSame x y | skipUnlessSame x y =>
    cases h
    exact same.skipIf _
  | set x k | add x k =>
    cases h
    exact same.setV rfl _
  | arith op x y =>
    cases h
    exact arith_frame s op x y
  | setIndex a =>
    cases h
    exact same.withIndex trivial _
  | jumpOffset a =>
    cases h
    exact same.withPc _
  | random x k =>
    cases h
    exact (same.setV rfl _).withRng trivial _
  | draw x y n =>
    rw [perform_draw] at h
    split at h
    · cases h
    · split at h <;> cases h
      exact (same.setV rfl _).withDisplay trivial _
  | skipIfKey x =>
    rw [perform_skipIfKey] at h
    split at h <;> cases h
    exact same.skipIf _
  | skipUnlessKey x =>
    rw [perform_skipUnlessKey] at h
    split at h <;> cases h
    exact same.skipIf _
  | readDelay x =>
    cases h
    exact same.setV rfl _
  | awaitKey x =>
    rw [perform] at h
    split at h
    · cases h
      exact same.withPc _
    · rename_i k hk
      cases h
      exact same.setV ⟨Keys.any_of_lowest? hk, rfl⟩ _
  | setDelay x =>
    cases h
    exact same.withDelay trivial _
  | setSound x =>
    cases h
    exact same.withSound trivial _
  | addIndex x =>
    cases h
    exact same.withIndex trivial _
  | glyph x =>
    rw [perform_glyph] at h
    split at h <;> cases h
    exact same.withIndex trivial _
  | digits x =>
    rw [perform_digits] at h
    split at h <;> cases h
    exact same.store fun j h1 h2 => ⟨h1, h2⟩
  | saveRegisters x =>
    rw [perform_saveRegisters] at h
    split at h <;> cases h
    have hm : Frame (.saveRegisters x) s
        { s with memory := s.memory.store s.index.toNat (s.saved x) } :=
      same.store fun j h1 h2 => ⟨h1, by rwa [length_saved] at h2⟩
    exact hm.moveIndex (fun hl => hl) _
  | loadRegisters x =>
    rw [perform_loadRegisters] at h
    split at h <;> cases h
    have hl : (s.atIndex (x.val + 1)).length = x.val + 1 := Memory.length_slice _ (by omega)
    have hv : Frame (.loadRegisters x) s { s with v := replaceV s.v (s.atIndex (x.val + 1)) } :=
      same.replaceV fun k hk => Fin.le_def.mpr (by omega)
    exact hv.moveIndex (fun hl => hl) _

/-- Only a call and a return touch the stack. -/
theorem perform_stack_cases (h : s.perform i = .ok t) :
    t.stack = s.stack ∨
    (∃ a, i = call a ∧ s.stack.depth < 16 ∧ t.stack = s.stack.append s.pc) ∨
    (i = .return ∧ 0 < s.stack.depth ∧ t.stack = s.stack.dropTop ∧ t.pc = s.stack.top) := by
  cases i with
  | «return» =>
    rw [perform_return] at h
    split at h <;> cases h
    rename_i hd
    exact .inr (.inr ⟨rfl, Nat.pos_of_ne_zero hd, rfl, rfl⟩)
  | call a =>
    rw [perform_call] at h
    split at h <;> cases h
    rename_i hd
    exact .inr (.inl ⟨a, rfl, by omega, rfl⟩)
  | _ => exact .inl ((perform_frame h).stack nofun)

/-- The display is left alone, cleared, or flipped under a sprite. -/
theorem perform_display_cases (h : s.perform i = .ok t) :
    t.display = s.display ∨ t.display = .blank ∨
    ∃ sprite x y, t.display = s.display.flip (.mask sprite x y) := by
  cases i with
  | clearScreen =>
    cases h
    exact .inr (.inl rfl)
  | draw x y n =>
    rw [perform_draw] at h
    split at h
    · cases h
    · split at h <;> cases h
      exact .inr (.inr ⟨_, _, _, rfl⟩)
  | _ => exact .inl ((perform_frame h).display nofun)

/-! ### The program counter -/

theorem moveIndex_pc (s : State) (n : Nat) : (s.moveIndex n).pc = s.pc := by
  unfold moveIndex
  split <;> rfl

theorem skip_pc (s : State) : s.skip.pc = UInt16.ofNat (s.pc.toNat + 2) := by
  rw [UInt16.ofNat_add, UInt16.ofNat_toNat]
  rfl

theorem skip_skipIf_pc (s : State) (c : Bool) :
    (s.skip.skipIf c).pc = UInt16.ofNat (s.pc.toNat + if c then 4 else 2) := by
  cases c with
  | false => exact skip_pc s
  | true =>
    show s.pc + 2 + 2 = UInt16.ofNat (s.pc.toNat + 4)
    rw [UInt16.ofNat_add, UInt16.ofNat_toNat, UInt16.add_assoc]
    rfl

theorem perform_skip_pc (h : s.skip.perform i = .ok t) : t.pc = UInt16.ofNat (i.next s) := by
  cases i with
  | «return» =>
    rw [perform_return] at h
    split at h <;> cases h
    exact UInt16.ofNat_toNat.symm
  | call a =>
    rw [perform_call] at h
    split at h <;> cases h
    rfl
  | jump a | jumpOffset a =>
    cases h
    rfl
  | skipIfEqual x k | skipUnlessEqual x k =>
    cases h
    exact skip_skipIf_pc s _
  | skipIfSame x y | skipUnlessSame x y =>
    cases h
    exact skip_skipIf_pc s _
  | skipIfKey x =>
    rw [perform_skipIfKey] at h
    split at h <;> cases h
    rename_i hk
    have hd : (skipIfKey x).skips s = s.keys.get ⟨_, hk⟩ :=
      (Keys.getElem?_beq s.keys hk true).trans (beq_true _)
    have hn : (skipIfKey x).next s = s.pc.toNat + if (skipIfKey x).skips s then 4 else 2 := rfl
    rw [hn, hd]
    exact skip_skipIf_pc s _
  | skipUnlessKey x =>
    rw [perform_skipUnlessKey] at h
    split at h <;> cases h
    rename_i hk
    have hd : (skipUnlessKey x).skips s = !s.keys.get ⟨_, hk⟩ :=
      (Keys.getElem?_beq s.keys hk false).trans (beq_false _)
    have hn : (skipUnlessKey x).next s = s.pc.toNat + if (skipUnlessKey x).skips s then 4 else 2 :=
      rfl
    rw [hn, hd]
    exact skip_skipIf_pc s _
  | awaitKey x =>
    rw [perform] at h
    split at h
    · rename_i hk
      have hany : s.keys.any = false := Keys.lowest?_eq_none_iff.mp hk
      have hn : (awaitKey x).next s = s.pc.toNat := if_neg (by simp [hany])
      cases h
      show s.pc + 2 - 2 = _
      rw [hn, UInt16.add_sub_cancel, UInt16.ofNat_toNat]
    · rename_i k hk
      have hany : s.keys.any = true := Keys.any_of_lowest? hk
      have hn : (awaitKey x).next s = s.pc.toNat + 2 := if_pos hany
      cases h
      rw [hn]
      exact skip_pc s
  | arith op x y =>
    cases h
    rw [show (s.skip.arith op x y).pc = s.skip.pc by cases op <;> rfl]
    exact skip_pc s
  | draw x y n =>
    rw [perform_draw] at h
    split at h
    · cases h
    · split at h <;> cases h
      exact skip_pc s
  | glyph x =>
    rw [perform_glyph] at h
    split at h <;> cases h
    exact skip_pc s
  | digits x =>
    rw [perform_digits] at h
    split at h <;> cases h
    exact skip_pc s
  | saveRegisters x =>
    rw [perform_saveRegisters] at h
    split at h <;> cases h
    rw [moveIndex_pc]
    exact skip_pc s
  | loadRegisters x =>
    rw [perform_loadRegisters] at h
    split at h <;> cases h
    rw [moveIndex_pc]
    exact skip_pc s
  | _ =>
    cases h
    exact skip_pc s

/-! ### The law of the instruction set -/

/-- **Control flow and frame.**  A word that is accepted is the word of an instruction.  Execution
goes on where `Instruction.next` says, and nothing has changed that `Instruction.Writes` does not
allow. -/
theorem execute_next_frame {w : Int} (h : s.execute w = .ok t) :
    ∃ i : Instruction, (i.word : Int) = w ∧ t.pc.toNat = i.next s % 65536 ∧ Frame i s t := by
  obtain ⟨i, hw, hp⟩ := execute_eq_ok_iff.mp h
  refine ⟨i, hw, ?_, ?_⟩
  · rw [perform_skip_pc hp]
    exact UInt16.toNat_ofNat'
  · -- the instruction takes effect one word on, and what it writes does not depend on the address
    have hf : Frame i s.skip t := perform_frame hp
    exact { hf with }

/-- A skip at the end of the addresses goes on at the beginning. -/
theorem execute_next_frame_wraps :
    let s : State := { initial ⟨0, 0⟩ false with pc := 0xFFFE }
    s.execute 0x3000 = .ok s.skip.skip ∧
      ∃ i : Instruction, (i.word : Int) = 0x3000 ∧ s.skip.skip.pc.toNat = i.next s % 65536 ∧
        i.next s = 0x10002 ∧ Frame i s s.skip.skip := by
  intro s
  have he : s.execute 0x3000 = .ok s.skip.skip :=
    execute_eq_ok_iff.mpr ⟨.skipIfEqual 0 0, rfl, rfl⟩
  obtain ⟨i, hw, hn, hf⟩ := execute_next_frame he
  obtain rfl : i = .skipIfEqual 0 0 := word_injective (Int.ofNat.inj hw)
  exact ⟨he, _, hw, hn, rfl, hf⟩

end State

end Chip8
