import Chip8.Proofs.Opcode
import Chip8.Proofs.Perform

/-!
# Which words fault, and how

A `Hazard` is a reason to refuse a word.  `Hazard.Present` says for each of them, by the opcode
table and the state, when it is there; `hazard?` looks for one.

* `present_word_iff`       a listed word has the hazard that `hazard?` finds, and no other;
* `perform_eq_error_iff`   an instruction is refused exactly for its hazard;
* `execute_eq_error_iff`   the complete fault of a word;
* `fault_classification`   both together with the fault of a fetch, for words and for steps.
-/

namespace Chip8

/-- The reasons for which a word is refused, with the operand that matters. -/
inductive Hazard where
  | notAWord
  | unlisted
  | emptyReturn
  | fullCall
  | flatSprite
  | spriteBeyond (rows : Fin 16)
  | digitsBeyond
  | registersBeyond (last : Fin 16)
  | key (x : Fin 16)
  | digit (x : Fin 16)
  deriving DecidableEq, Repr

namespace Hazard
open Instruction

/-- The class of the fault. -/
def kind : Hazard → FaultKind
  | notAWord => .decode
  | unlisted => .unknownInstruction
  | emptyReturn => .stackUnderflow
  | fullCall => .stackOverflow
  | flatSprite => .spriteHeight
  | spriteBeyond _ | digitsBeyond | registersBeyond _ => .memoryBounds
  | key _ => .invalidKey
  | digit _ => .invalidDigit

/-- When a word has the hazard in a state. -/
def Present (s : State) (w : Int) : Hazard → Prop
  | notAWord => w < 0 ∨ 0xFFFF < w
  | unlisted => Word.Unlisted w
  | emptyReturn => w = (Instruction.return).word ∧ s.stack.depth = 0
  | fullCall => (∃ a, w = (call a).word) ∧ s.stack.depth = 16
  | flatSprite => ∃ x y, w = (draw x y 0).word
  | spriteBeyond n => (∃ x y, w = (draw x y n).word) ∧ 1 ≤ n.val ∧ 4096 < s.index.toNat + n.val
  | digitsBeyond => (∃ x, w = (digits x).word) ∧ 4096 < s.index.toNat + 3
  | registersBeyond x =>
    (w = (saveRegisters x).word ∨ w = (loadRegisters x).word) ∧ 4096 < s.index.toNat + (x.val + 1)
  | key x => (w = (skipIfKey x).word ∨ w = (skipUnlessKey x).word) ∧ 15 < (s.v.get x).toNat
  | digit x => w = (glyph x).word ∧ 15 < (s.v.get x).toNat

/-- What the fault says. -/
def cause (s : State) (w : Int) : Hazard → Cause
  | notAWord => .notAWord w
  | unlisted => .unknownInstruction (UInt16.ofNat w.toNat)
  | emptyReturn => .stackUnderflow
  | fullCall => .stackOverflow
  | flatSprite => .spriteHeight 0
  | spriteBeyond n => .outOfBounds s.index.toNat n.val
  | digitsBeyond => .outOfBounds s.index.toNat 3
  | registersBeyond x => .outOfBounds s.index.toNat (x.val + 1 : Nat)
  | key x => .keyIndex x (s.v.get x)
  | digit x => .fontDigit x (s.v.get x)

/-- The whole fault, with the address of the word. -/
def fault (s : State) (w : Int) (h : Hazard) : Fault where
  cause := h.cause s w
  instruction := some w
  pc := some s.pc.toNat

theorem kind_fault (s : State) (w : Int) (h : Hazard) : (h.fault s w).kind = h.kind := by
  cases h <;> rfl

end Hazard

namespace State
open Instruction

/-- The hazard of an instruction. -/
def hazard? (s : State) : Instruction → Option Hazard
  | .return => if s.stack.depth = 0 then some .emptyReturn else none
  | call _ => if s.stack.depth = 16 then some .fullCall else none
  | draw _ _ n =>
    if n = 0 then some .flatSprite
    else if 4096 < s.index.toNat + n.val then some (.spriteBeyond n) else none
  | digits _ => if 4096 < s.index.toNat + 3 then some .digitsBeyond else none
  | saveRegisters x | loadRegisters x =>
    if 4096 < s.index.toNat + (x.val + 1) then some (.registersBeyond x) else none
  | skipIfKey x | skipUnlessKey x => if 15 < (s.v.get x).toNat then some (.key x) else none
  | glyph x => if 15 < (s.v.get x).toNat then some (.digit x) else none
  | _ => none

theorem present_draw_iff {s : State} {x y n : Fin 16} {h : Hazard} :
    h.Present s (draw x y n).word ↔
      n = 0 ∧ h = .flatSprite ∨ n ≠ 0 ∧ 4096 < s.index.toNat + n.val ∧ h = .spriteBeyond n := by
  cases h with
  | spriteBeyond k =>
    have hk : (1 ≤ k.val) ↔ k ≠ 0 := by
      rw [Nat.one_le_iff_ne_zero, ← Fin.val_ne_iff]
      rfl
    simp only [Hazard.Present, word_eq_word_iff, draw.injEq, hk, Hazard.spriteBeyond.injEq]
    refine ⟨fun hp => ?_, fun hp => ?_⟩
    · obtain ⟨⟨_, _, _, _, rfl⟩, h0, hb⟩ := hp
      exact .inr ⟨h0, hb, rfl⟩
    · rcases hp with ⟨_, h⟩ | ⟨h0, hb, rfl⟩
      · cases h
      · exact ⟨⟨x, y, rfl, rfl, rfl⟩, h0, hb⟩
  | _ => simp [Hazard.Present]

/-- A word of the table has the hazard that is found, and no other. -/
theorem present_word_iff {s : State} {i : Instruction} {h : Hazard} :
    h.Present s i.word ↔ s.hazard? i = some h := by
  cases i with
  | draw x y n =>
    rw [present_draw_iff, hazard?]
    by_cases hn : n = 0
    · simp [hn, eq_comm]
    · by_cases hb : 4096 < s.index.toNat + n.val
      · simp [hn, hb, eq_comm]
      · simp [hn, hb]
  | digits x =>
    by_cases hb : 4096 < s.index.toNat + 3 <;> cases h <;> simp [Hazard.Present, hazard?, hb]
  | saveRegisters x | loadRegisters x =>
    cases h with
    | registersBeyond k =>
      by_cases hk : x = k
      · simp [Hazard.Present, hazard?, hk]
      · simp [Hazard.Present, hazard?, hk]
    | _ => simp [Hazard.Present, hazard?]
  | skipIfKey x | skipUnlessKey x | glyph x =>
    cases h with
    | key k | digit k =>
      by_cases hk : x = k
      · simp [Hazard.Present, hazard?, hk]
      · simp [Hazard.Present, hazard?, hk]
    | _ => simp [Hazard.Present, hazard?]
  | _ => cases h <;> simp [Hazard.Present, hazard?]

/-! ### What is refused -/

theorem refused_iff (s : State) (w : Int) (h : Hazard) (c : Cause) :
    (.error (h.cause s w) : Except Cause State) = .error c ↔
      ∃ k, some h = some k ∧ c = k.cause s w := by
  refine ⟨fun e => ⟨h, rfl, (Except.error.inj e).symm⟩, fun e => ?_⟩
  obtain ⟨k, hk, rfl⟩ := e
  cases hk
  rfl

theorem accepted_iff (s t : State) (w : Int) (c : Cause) :
    (.ok t : Except Cause State) = .error c ↔
      ∃ k : Hazard, none = some k ∧ c = k.cause s w := by
  refine ⟨nofun, fun e => ?_⟩
  obtain ⟨k, hk, -⟩ := e
  cases hk

/-- An instruction is refused exactly for its hazard. -/
theorem perform_eq_error_iff {s : State} (hs : s.stack.depth ≤ 16) {i : Instruction} {c : Cause} :
    s.perform i = .error c ↔ ∃ h, s.hazard? i = some h ∧ c = h.cause s i.word := by
  cases i with
  | «return» =>
    rw [perform_return, hazard?]
    split
    · exact refused_iff s _ .emptyReturn c
    · exact accepted_iff s _ _ c
  | call a =>
    have hd : 16 ≤ s.stack.depth ↔ s.stack.depth = 16 := by omega
    rw [perform_call, hazard?]
    simp only [hd]
    split
    · exact refused_iff s _ .fullCall c
    · exact accepted_iff s _ _ c
  | draw x y n =>
    rw [perform_draw, hazard?]
    split
    · exact refused_iff s _ .flatSprite c
    · split
      · exact refused_iff s _ (.spriteBeyond n) c
      · exact accepted_iff s _ _ c
  | skipIfKey x =>
    rw [perform_skipIfKey, hazard?]
    split
    · rw [if_neg (by omega)]
      exact accepted_iff s _ _ c
    · rw [if_pos (by omega)]
      exact refused_iff s _ (.key x) c
  | skipUnlessKey x =>
    rw [perform_skipUnlessKey, hazard?]
    split
    · rw [if_neg (by omega)]
      exact accepted_iff s _ _ c
    · rw [if_pos (by omega)]
      exact refused_iff s _ (.key x) c
  | glyph x =>
    rw [perform_glyph, hazard?]
    split
    · exact refused_iff s _ (.digit x) c
    · exact accepted_iff s _ _ c
  | digits x =>
    rw [perform_digits, hazard?]
    split
    · exact refused_iff s _ .digitsBeyond c
    · exact accepted_iff s _ _ c
  | saveRegisters x =>
    rw [perform_saveRegisters, hazard?]
    split
    · exact refused_iff s _ (.registersBeyond x) c
    · exact accepted_iff s _ _ c
  | loadRegisters x =>
    rw [perform_loadRegisters, hazard?]
    split
    · exact refused_iff s _ (.registersBeyond x) c
    · exact accepted_iff s _ _ c
  | awaitKey x =>
    rw [perform]
    split <;> exact accepted_iff s _ _ c
  | _ => exact accepted_iff s _ _ c

/-- The hazard of a word. -/
def hazardOf? (s : State) (w : Int) : Option Hazard :=
  match decode w with
  | .ok i => s.hazard? i
  | .error (.notAWord _) => some .notAWord
  | .error _ => some .unlisted

/-- Every hazard but the first two is one of a word in the table. -/
theorem listed_of_present {s : State} {w : Int} {h : Hazard} (hp : h.Present s w) :
    h = .notAWord ∨ h = .unlisted ∨ ∃ i : Instruction, w = i.word := by
  cases h with
  | notAWord => exact .inl rfl
  | unlisted => exact .inr (.inl rfl)
  | emptyReturn => exact .inr (.inr ⟨_, hp.1⟩)
  | fullCall =>
    obtain ⟨a, hw⟩ := hp.1
    exact .inr (.inr ⟨_, hw⟩)
  | flatSprite =>
    obtain ⟨x, y, hw⟩ := hp
    exact .inr (.inr ⟨_, hw⟩)
  | spriteBeyond n =>
    obtain ⟨x, y, hw⟩ := hp.1
    exact .inr (.inr ⟨_, hw⟩)
  | digitsBeyond =>
    obtain ⟨x, hw⟩ := hp.1
    exact .inr (.inr ⟨_, hw⟩)
  | registersBeyond x =>
    rcases hp.1 with hw | hw
    · exact .inr (.inr ⟨_, hw⟩)
    · exact .inr (.inr ⟨_, hw⟩)
  | key x =>
    rcases hp.1 with hw | hw
    · exact .inr (.inr ⟨_, hw⟩)
    · exact .inr (.inr ⟨_, hw⟩)
  | digit x => exact .inr (.inr ⟨_, hp.1⟩)

theorem present_iff {s : State} {w : Int} {h : Hazard} :
    h.Present s w ↔ s.hazardOf? w = some h := by
  unfold hazardOf?
  cases hd : decode w with
  | ok i =>
    rw [← decode_eq_ok_iff.mp hd]
    exact present_word_iff
  | error c =>
    have hw : ¬ ∃ i : Instruction, w = i.word := by
      intro hi
      obtain ⟨i, hi⟩ := hi
      rw [decode_eq_ok_iff.mpr hi.symm] at hd
      cases hd
    rcases decode_eq_error_iff.mp hd with ⟨hr, rfl⟩ | ⟨hu, rfl⟩
    · refine ⟨fun hp => ?_, fun e => ?_⟩
      · rcases listed_of_present hp with rfl | rfl | hi
        · rfl
        · have := Word.Unlisted.range hp
          omega
        · exact absurd hi hw
      · cases e
        exact hr
    · refine ⟨fun hp => ?_, fun e => ?_⟩
      · rcases listed_of_present hp with rfl | rfl | hi
        · have := Word.Unlisted.range hu
          have hp' : w < 0 ∨ 0xFFFF < w := hp
          omega
        · rfl
        · exact absurd hi hw
      · cases e
        exact hu

/-- A word has at most one hazard. -/
theorem present_unique {s : State} {w : Int} {h k : Hazard} (hh : h.Present s w)
    (hk : k.Present s w) : h = k := by
  rw [present_iff] at hh hk
  exact Option.some.inj (hh.symm.trans hk)

/-- The location that is attached to a fault is the one of the word, whoever knows it first. -/
theorem locate_cause {s : State} {w : Int} {h : Hazard} (hp : h.Present s w) :
    (Fault.ofCause (h.cause s w)).locate (some w) (some s.pc.toNat) = h.fault s w := by
  cases h with
  | unlisted =>
    have hr := Word.Unlisted.range hp
    have hw : ((UInt16.ofNat w.toNat).toNat : Int) = w := toNat_ofNat_of_range hr.1 hr.2
    simp only [Hazard.fault, Hazard.cause, Fault.ofCause, Fault.locate, hw]
    rfl
  | _ => rfl

theorem decode_perform_eq_error_iff {s : State} (hs : s.stack.depth ≤ 16) {w : Int} {c : Cause} :
    (decode w >>= s.skip.perform) = .error c ↔ ∃ h : Hazard, h.Present s w ∧ c = h.cause s w := by
  cases hd : decode w with
  | ok i =>
    obtain rfl := decode_eq_ok_iff.mp hd
    show s.skip.perform i = .error c ↔ _
    rw [perform_eq_error_iff (s := s.skip) hs]
    exact exists_congr fun h => and_congr_left fun _ => (present_word_iff (s := s)).symm
  | error c₀ =>
    show Except.error c₀ = .error c ↔ _
    rcases decode_eq_error_iff.mp hd with ⟨hr, rfl⟩ | ⟨hu, rfl⟩
    · refine ⟨fun e => ⟨.notAWord, hr, (Except.error.inj e).symm⟩, fun e => ?_⟩
      obtain ⟨h, hp, rfl⟩ := e
      rw [present_iff, hazardOf?, hd] at hp
      cases hp
      rfl
    · refine ⟨fun e => ⟨.unlisted, hu, (Except.error.inj e).symm⟩, fun e => ?_⟩
      obtain ⟨h, hp, rfl⟩ := e
      rw [present_iff, hazardOf?, hd] at hp
      cases hp
      rfl

/-- A word faults exactly if it has a hazard, and the hazard fixes the whole fault. -/
theorem execute_eq_error_iff {s : State} (hs : s.stack.depth ≤ 16) {w : Int} {f : Fault} :
    s.execute w = .error f ↔ ∃ h : Hazard, h.Present s w ∧ f = h.fault s w := by
  unfold execute
  split
  · rename_i t h
    refine ⟨nofun, fun e => ?_⟩
    obtain ⟨k, hk, -⟩ := e
    rw [(decode_perform_eq_error_iff hs).mpr ⟨k, hk, rfl⟩] at h
    cases h
  · rename_i c h
    obtain ⟨k, hk, rfl⟩ := (decode_perform_eq_error_iff hs).mp h
    rw [locate_cause hk]
    refine ⟨fun e => ⟨k, hk, (Except.error.inj e).symm⟩, fun e => ?_⟩
    obtain ⟨k', hk', rfl⟩ := e
    rw [present_unique hk hk']

/-- **Faults are classified.**  An integer faults as a word exactly if one of the hazards is there, and then
only one is, and the fault is that hazard's.  A step adds the fault of a fetch, before any word is known. -/
theorem fault_classification {s : State} (hs : s.stack.depth ≤ 16) :
    (∀ w : Int,
      ((∃ f, s.execute w = .error f) ↔ ∃! h : Hazard, h.Present s w) ∧
      ∀ f, s.execute w = .error f → ∀ h : Hazard, h.Present s w →
        f.kind = h.kind ∧ f.cause = h.cause s w ∧ f.instruction = some w ∧
          f.pc = some (s.pc.toNat : Int)) ∧
    (4096 < s.pc.toNat + 2 → ∃ f, s.step = .error f ∧ f.kind = .memoryBounds ∧
      f.instruction = none ∧ f.pc = some (s.pc.toNat : Int)) ∧
    (s.pc.toNat + 2 ≤ 4096 → ∃ w, s.fetch = .ok w ∧
      ∀ f, s.step = .error f ↔ s.execute w.toNat = .error f) := by
  refine ⟨fun w => ⟨⟨?_, ?_⟩, ?_⟩, ?_, ?_⟩
  · intro hf
    obtain ⟨f, hf⟩ := hf
    obtain ⟨h, hp, -⟩ := (execute_eq_error_iff hs).mp hf
    exact ⟨h, hp, fun k hk => present_unique hk hp⟩
  · intro hp
    obtain ⟨h, hp, -⟩ := hp
    exact ⟨_, (execute_eq_error_iff hs).mpr ⟨h, hp, rfl⟩⟩
  · intro f hf h hp
    obtain ⟨k, hk, rfl⟩ := (execute_eq_error_iff hs).mp hf
    obtain rfl := present_unique hp hk
    exact ⟨h.kind_fault s w, rfl, rfl, rfl⟩
  · intro hb
    exact ⟨_, step_eq_error_iff.mpr (.inl (fetch_eq_error_iff.mpr ⟨hb, rfl⟩)), rfl, rfl, rfl⟩
  · intro hb
    have hf := fetch_of_lt (s := s) (by omega)
    refine ⟨_, hf, fun f => ?_⟩
    rw [step_eq_error_iff, hf]
    refine ⟨fun h => ?_, fun h => .inr ⟨_, rfl, h⟩⟩
    rcases h with h | ⟨w, hw, h⟩
    · cases h
    · cases hw
      exact h

/-- A sprite of no rows is refused for its height, however far beyond memory the index is. -/
theorem fault_classification_flat_sprite :
    let s : State := { State.initial ⟨0, 0⟩ false with index := 0xFFFF }
    s.stack.depth ≤ 16 ∧ ∃ f, s.execute 0xD010 = .error f ∧ f.kind = .spriteHeight ∧
      f.instruction = some 0xD010 ∧ f.pc = some 0x200 := by
  intro s
  have hs : s.stack.depth ≤ 16 := Nat.zero_le _
  have hp : Hazard.flatSprite.Present s 0xD010 := ⟨0, 1, rfl⟩
  obtain ⟨hiff, hfault⟩ := (fault_classification hs).1 0xD010
  obtain ⟨f, hf⟩ := hiff.mpr ⟨_, hp, fun k hk => present_unique hk hp⟩
  obtain ⟨hk, -, hi, hpc⟩ := hfault f hf _ hp
  exact ⟨hs, f, hf, hk, hi, hpc⟩

end State

end Chip8
