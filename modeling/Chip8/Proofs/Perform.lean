import Chip8.Execute
import Chip8.Proofs.Opcode

/-!
# What the guarded instructions do

Nine instructions can be refused.  Each gets an equation here that says when, with which cause, and
what the new state is otherwise; the others are plain updates of the state.  `fetch_eq_ok_iff` and
`fetch_eq_error_iff` do the same for the fetch in front of them, `execute_eq_ok_iff` and
`step_eq_ok_iff` take an execution and a step apart.
-/

namespace Chip8

namespace CallStack

/-- The slot that a pop reads. -/
def top (s : CallStack) : UInt16 := s.slots.toArray.getD (s.depth - 1) 0

/-- The stack without its last address; the vacated slot is cleared. -/
def dropTop (s : CallStack) : CallStack := ⟨s.slots.setIfInBounds (s.depth - 1) 0, s.depth - 1⟩

/-- The stack with one address more. -/
def append (s : CallStack) (a : UInt16) : CallStack :=
  ⟨s.slots.setIfInBounds s.depth a, s.depth + 1⟩

theorem pop_eq (s : CallStack) :
    s.pop = if s.depth = 0 then .error .stackUnderflow else .ok (s.top, s.dropTop) := by
  unfold pop
  split
  · rename_i h
    rw [if_pos h]
  · rename_i d h
    rw [if_neg (by omega), top, dropTop, h]
    rfl

theorem push_toNat (s : CallStack) (a : UInt16) :
    s.push a.toNat = if 16 ≤ s.depth then .error .stackOverflow else .ok (s.append a) := by
  have ha : UInt16.ofInt a.toNat = a := by
    have := a.toNat_lt
    apply UInt16.toNat_inj.mp
    simp [UInt16.ofInt]
    omega
  rw [push, append, ha]

end CallStack

namespace Display

/-- What a sprite puts over the whole display. -/
def mask (sprite : List UInt8) (x y : Int32) : Display := ofFn (spriteAt sprite x y)

theorem draw_eq_ok (d : Display) {sprite : List UInt8} (x y : Int32)
    (h : 1 ≤ sprite.length ∧ sprite.length ≤ 15) :
    d.draw sprite x y = .ok (d.flip (mask sprite x y), d.meets (mask sprite x y)) := by
  have hn : ¬ (sprite.length < minSpriteRows ∨ maxSpriteRows < sprite.length) := by
    have h1 : minSpriteRows = 1 := rfl
    have h2 : maxSpriteRows = 15 := rfl
    omega
  rw [draw, if_neg hn]
  rfl

end Display

namespace State
variable (s : State)

theorem perform_return : s.perform .return =
    if s.stack.depth = 0 then .error .stackUnderflow
    else .ok { s with stack := s.stack.dropTop, pc := s.stack.top } := by
  rw [perform, CallStack.pop_eq]
  split <;> rfl

theorem perform_call (a : Fin 4096) : s.perform (.call a) =
    if 16 ≤ s.stack.depth then .error .stackOverflow
    else .ok { s with stack := s.stack.append s.pc, pc := UInt16.ofNat a } := by
  rw [perform, CallStack.push_toNat]
  split <;> rfl

/-- The `n` bytes from the index on. -/
def atIndex (n : Nat) : List UInt8 := s.memory.slice s.index.toNat ((s.index.toNat : Int) + n)

/-- What drawing `n` rows at `(VX, VY)` puts over the display. -/
def spriteMask (x y : Fin 16) (n : Nat) : Display :=
  Display.mask (s.atIndex n) (.ofNat (s.v.get x).toNat) (.ofNat (s.v.get y).toNat)

theorem perform_draw (x y n : Fin 16) : s.perform (.draw x y n) =
    if n = 0 then .error (.spriteHeight 0)
    else if 4096 < s.index.toNat + n.val then .error (.outOfBounds s.index.toNat n.val)
    else .ok { s.setV flag (if s.display.meets (s.spriteMask x y n) then 1 else 0) with
      display := s.display.flip (s.spriteMask x y n) } := by
  rw [perform]
  split
  · rfl
  · rename_i h0
    rw [Memory.read_natCast]
    split
    · rfl
    · rename_i h
      have hl : (s.atIndex n).length = n := Memory.length_slice _ (by omega)
      have hn : n.val ≠ 0 := fun e => h0 (Fin.ext e)
      have hrows : 1 ≤ (s.atIndex n).length ∧ (s.atIndex n).length ≤ 15 := by omega
      show Except.bind (s.display.draw (s.atIndex n) _ _) _ = _
      rw [Display.draw_eq_ok s.display _ _ hrows]
      rfl

theorem keyAt_eq (x : Fin 16) : s.keyAt x =
    if h : (s.v.get x).toNat < 16 then .ok s.keys[(s.v.get x).toNat]
    else .error (.keyIndex x (s.v.get x)) := rfl

theorem perform_skipIfKey (x : Fin 16) : s.perform (.skipIfKey x) =
    if h : (s.v.get x).toNat < 16 then .ok (s.skipIf s.keys[(s.v.get x).toNat])
    else .error (.keyIndex x (s.v.get x)) := by
  rw [perform, keyAt_eq]
  split <;> rfl

theorem perform_skipUnlessKey (x : Fin 16) : s.perform (.skipUnlessKey x) =
    if h : (s.v.get x).toNat < 16 then .ok (s.skipIf (!s.keys[(s.v.get x).toNat]))
    else .error (.keyIndex x (s.v.get x)) := by
  rw [perform, keyAt_eq]
  split <;> rfl

theorem perform_glyph (x : Fin 16) : s.perform (.glyph x) =
    if 15 < (s.v.get x).toNat then .error (.fontDigit x (s.v.get x))
    else .ok { s with index := UInt16.ofNat ((s.v.get x).toNat * 5) } := by
  have hd : (0xF : UInt8) < s.v.get x ↔ 15 < (s.v.get x).toNat := UInt8.lt_iff_toNat_lt
  rw [perform]
  simp only [hd]
  split
  · rfl
  · rw [fontStart, Nat.zero_add]
    rfl

theorem perform_digits (x : Fin 16) : s.perform (.digits x) =
    if 4096 < s.index.toNat + 3 then .error (.outOfBounds s.index.toNat 3)
    else .ok { s with memory := s.memory.store s.index.toNat (decimalDigits (s.v.get x)) } := by
  have hl : (decimalDigits (s.v.get x)).length = 3 := rfl
  rw [perform, Memory.write_natCast, hl]
  split <;> rfl

/-- The bytes of the registers up to and with the last one. -/
def saved (last : Fin 16) : List UInt8 := s.v.toList.take (last.val + 1)

theorem length_saved (last : Fin 16) : (s.saved last).length = last.val + 1 := by
  simp only [saved, List.length_take, Vector.length_toList]
  omega

theorem perform_saveRegisters (x : Fin 16) : s.perform (.saveRegisters x) =
    if 4096 < s.index.toNat + (x.val + 1) then .error (.outOfBounds s.index.toNat (x.val + 1 : Nat))
    else
      .ok ({ s with memory := s.memory.store s.index.toNat (s.saved x) }.moveIndex (x.val + 1)) := by
  rw [perform, Memory.write_natCast, ← saved, length_saved]
  split <;> rfl

theorem perform_loadRegisters (x : Fin 16) : s.perform (.loadRegisters x) =
    if 4096 < s.index.toNat + (x.val + 1) then .error (.outOfBounds s.index.toNat (x.val + 1 : Nat))
    else .ok ({ s with v := replaceV s.v (s.atIndex (x.val + 1)) }.moveIndex (x.val + 1)) := by
  rw [perform, Memory.read_natCast]
  split <;> rfl

/-! ### Fetching -/

theorem toNat_bigEndian (a b : UInt8) : (bigEndian [a, b]).toNat = a.toNat * 256 + b.toNat := by
  have ha := a.toNat_lt
  have hb := b.toNat_lt
  have h0 : (0 : UInt16) <<< 8 ||| a.toUInt16 = a.toUInt16 := by
    rw [UInt16.zero_shiftLeft, UInt16.zero_or]
  show (((0 : UInt16) <<< 8 ||| a.toUInt16) <<< 8 ||| b.toUInt16).toNat = _
  rw [h0, UInt16.toNat_or, UInt16.toNat_shiftLeft]
  show (a.toNat <<< 8) % 65536 ||| b.toNat = _
  rw [Nat.mod_eq_of_lt (by rw [Nat.shiftLeft_eq]; omega), ← Nat.shiftLeft_add_eq_or_of_lt hb,
    Nat.shiftLeft_eq]

variable {s : State}

theorem fetch_of_lt (h : s.pc.toNat + 1 < 4096) :
    s.fetch = .ok (bigEndian [s.memory[s.pc.toNat], s.memory[s.pc.toNat + 1]]) := by
  have hr : s.memory.read s.pc.toNat 2 = .ok [s.memory[s.pc.toNat], s.memory[s.pc.toNat + 1]] :=
    Memory.read_eq_ok_iff.mpr ⟨by omega, by omega, (Memory.slice_two s.memory h).symm⟩
  rw [fetch, hr]

theorem fetch_of_not_lt (h : ¬ s.pc.toNat + 1 < 4096) :
    s.fetch = .error { cause := .outOfBounds s.pc.toNat 2, pc := some s.pc.toNat } := by
  have hr : s.memory.read s.pc.toNat 2 = .error (.outOfBounds s.pc.toNat 2) :=
    Memory.read_eq_error_iff.mpr ⟨by omega, rfl⟩
  rw [fetch, hr]
  rfl

/-- A word is fetched wherever two bytes are left, the high byte first. -/
theorem fetch_eq_ok_iff {w : UInt16} : s.fetch = .ok w ↔ ∃ h : s.pc.toNat + 1 < 4096,
    w.toNat = s.memory[s.pc.toNat].toNat * 256 + s.memory[s.pc.toNat + 1].toNat := by
  by_cases h : s.pc.toNat + 1 < 4096
  · rw [fetch_of_lt h]
    refine ⟨fun e => ?_, fun e => ?_⟩
    · rw [← Except.ok.inj e, toNat_bigEndian]
      exact ⟨h, rfl⟩
    · obtain ⟨_, hw⟩ := e
      rw [← toNat_bigEndian] at hw
      rw [UInt16.toNat_inj.mp hw]
  · rw [fetch_of_not_lt h]
    exact ⟨nofun, fun e => absurd e.1 h⟩

theorem fetch_eq_error_iff {f : Fault} : s.fetch = .error f ↔
    4096 < s.pc.toNat + 2 ∧ f = { cause := .outOfBounds s.pc.toNat 2, pc := some s.pc.toNat } := by
  by_cases h : s.pc.toNat + 1 < 4096
  · rw [fetch_of_lt h]
    exact ⟨nofun, fun e => by omega⟩
  · rw [fetch_of_not_lt h]
    refine ⟨fun e => ⟨by omega, (Except.error.inj e).symm⟩, fun e => ?_⟩
    obtain ⟨_, rfl⟩ := e
    rfl

/-! ### Executing -/

theorem execute_of_decode {w : Int} {i : Instruction} (h : Instruction.decode w = .ok i) :
    s.execute w =
      (s.skip.perform i).mapError fun c => (Fault.ofCause c).locate (some w) (some s.pc.toNat) := by
  have hbind : (Except.ok i >>= s.skip.perform) = s.skip.perform i := rfl
  rw [execute, h, hbind]
  cases s.skip.perform i <;> rfl

/-- A word that is accepted is the word of an instruction, which takes effect behind it. -/
theorem execute_eq_ok_iff {t : State} {w : Int} :
    s.execute w = .ok t ↔ ∃ i : Instruction, (i.word : Int) = w ∧ s.skip.perform i = .ok t := by
  have hd : (Instruction.decode w >>= s.skip.perform) = .ok t ↔
      ∃ i : Instruction, (i.word : Int) = w ∧ s.skip.perform i = .ok t := by
    rw [bind_eq_ok_iff]
    exact exists_congr fun i => and_congr_left fun _ => Instruction.decode_eq_ok_iff
  rw [← hd, execute]
  split
  · rename_i u h
    rw [h, Except.ok.injEq, Except.ok.injEq]
  · rename_i c h
    rw [h]
    exact ⟨nofun, nofun⟩

theorem step_of_fetch {w : UInt16} (h : s.fetch = .ok w) :
    s.step = (s.execute w.toNat).map (·, w) := by
  rw [step, h]
  show Except.bind (s.execute w.toNat) _ = _
  cases s.execute w.toNat <;> rfl

/-- A step that succeeds has fetched a word and executed it. -/
theorem step_eq_ok_iff {t : State} {w : UInt16} :
    s.step = .ok (t, w) ↔ s.fetch = .ok w ∧ s.execute w.toNat = .ok t := by
  rw [step, bind_eq_ok_iff]
  refine ⟨fun h => ?_, fun h => ?_⟩
  · obtain ⟨w', hf, h⟩ := h
    obtain ⟨t', he, h⟩ := bind_eq_ok_iff.mp h
    cases h
    exact ⟨hf, he⟩
  · obtain ⟨hf, he⟩ := h
    exact ⟨w, hf, bind_eq_ok_iff.mpr ⟨t, he, rfl⟩⟩

theorem step_eq_error_iff {f : Fault} : s.step = .error f ↔
    s.fetch = .error f ∨ ∃ w, s.fetch = .ok w ∧ s.execute w.toNat = .error f := by
  rw [step, bind_eq_error_iff]
  refine or_congr_right (exists_congr fun w => and_congr_right fun _ => ?_)
  rw [bind_eq_error_iff]
  refine ⟨fun h => ?_, .inl⟩
  rcases h with h | ⟨t, _, h⟩
  · exact h
  · cases h

end State

end Chip8
