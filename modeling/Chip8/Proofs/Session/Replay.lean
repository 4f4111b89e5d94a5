import Chip8.Proofs.Frame
import Chip8.Session

/-!
# What a trace says about the state

The events of a session, taken one after the other, say how the emulated state went on: a word that
was executed is a step, copied keys are the new key snapshot, a tick is a tick.

* `State.Replay s es t n`   the events take `s` to `t`, and `n` instructions are completed on the way;
* `Event.isIdle`            an event that leaves the state alone;
* `Replay.keys`             between two copies of the keypad the snapshot stays as it is.
-/

namespace Chip8

namespace Event

/-- The machine made a step, or tried to. -/
def isStep : Event → Bool
  | executed _ | faulted _ => true
  | _ => false

def isAwaited : Event → Bool
  | awaited _ => true
  | _ => false

def isRendered : Event → Bool
  | rendered _ => true
  | _ => false

/-- The keys that were copied. -/
def synced? : Event → Option Keys
  | synced keys => some keys
  | _ => none

/-- The event is beside a frame: time that passed, a line of the log, a device that looked at the
flag or asked for a stop. -/
def isRemark : Event → Bool
  | slept _ | printed _ | observed _ | stopped => true
  | _ => false

/-- The event is not about the state. -/
def isIdle : Event → Bool
  | executed _ | faulted _ | synced _ | ticked | wasReset => false
  | _ => true

theorem not_isAwaited {e : Event} (h : e.isStep = true) : ¬ e.isAwaited = true := by
  cases e with
  | executed _ | faulted _ => exact Bool.false_ne_true
  | _ => cases h

theorem synced?_eq_none {e : Event} (h : e.isStep = true) : e.synced? = none := by
  cases e with
  | executed _ | faulted _ => rfl
  | _ => cases h

end Event

namespace State
open Event

inductive Replay : State → List Event → State → Nat → Prop
  | nil (s : State) : Replay s [] s 0
  | completed {s t u : State} {w : UInt16} {es : List Event} {n : Nat}
      (hs : s.step = .ok (t, w)) (hw : s.waits t w = false) (h : Replay t es u n) :
      Replay s (executed w :: es) u (n + 1)
  | held {s t u : State} {w : UInt16} {es : List Event} {n : Nat}
      (hs : s.step = .ok (t, w)) (hw : s.waits t w = true) (h : Replay t es u n) :
      Replay s (executed w :: es) u n
  | faulted {s u : State} {f : Fault} {es : List Event} {n : Nat}
      (hs : s.step = .error f) (h : Replay s es u n) : Replay s (faulted f :: es) u n
  | synced {s u : State} {keys : Keys} {es : List Event} {n : Nat}
      (h : Replay { s with keys } es u n) : Replay s (synced keys :: es) u n
  | ticked {s u : State} {es : List Event} {n : Nat}
      (h : Replay s.tick es u n) : Replay s (ticked :: es) u n
  | idle {s u : State} {e : Event} {es : List Event} {n : Nat}
      (he : e.isIdle = true) (h : Replay s es u n) : Replay s (e :: es) u n

variable {s t u : State} {es fs : List Event} {m n : Nat}

theorem Replay.append (h : Replay s es t m) (h' : Replay t fs u n) :
    Replay s (es ++ fs) u (m + n) := by
  induction h with
  | nil => rwa [Nat.zero_add]
  | completed hs hw _ ih =>
    rw [Nat.add_right_comm]
    exact .completed hs hw (ih h')
  | held hs hw _ ih => exact .held hs hw (ih h')
  | faulted hs _ ih => exact .faulted hs (ih h')
  | synced _ ih => exact .synced (ih h')
  | ticked _ ih => exact .ticked (ih h')
  | idle he _ ih => exact .idle he (ih h')

theorem Replay.ofIdle (h : ∀ e ∈ es, e.isIdle = true) (s : State) : Replay s es s 0 := by
  induction es with
  | nil => exact .nil s
  | cons e es ih =>
    exact .idle (h e List.mem_cons_self) (ih fun e' he' => h e' (List.mem_cons_of_mem e he'))

/-- What happened is what happened first and what happened then. -/
theorem Replay.split (h : Replay s (es ++ fs) u n) :
    ∃ t k l, Replay s es t k ∧ Replay t fs u l ∧ n = k + l := by
  induction es generalizing s n with
  | nil => exact ⟨s, 0, n, .nil s, h, (Nat.zero_add n).symm⟩
  | cons e es ih =>
    rw [List.cons_append] at h
    cases h with
    | completed hs hw h =>
      obtain ⟨t, k, l, h1, h2, rfl⟩ := ih h
      exact ⟨t, k + 1, l, .completed hs hw h1, h2, Nat.add_right_comm k l 1⟩
    | held hs hw h =>
      obtain ⟨t, k, l, h1, h2, rfl⟩ := ih h
      exact ⟨t, k, l, .held hs hw h1, h2, rfl⟩
    | faulted hs h =>
      obtain ⟨t, k, l, h1, h2, rfl⟩ := ih h
      exact ⟨t, k, l, .faulted hs h1, h2, rfl⟩
    | synced h =>
      obtain ⟨t, k, l, h1, h2, rfl⟩ := ih h
      exact ⟨t, k, l, .synced h1, h2, rfl⟩
    | ticked h =>
      obtain ⟨t, k, l, h1, h2, rfl⟩ := ih h
      exact ⟨t, k, l, .ticked h1, h2, rfl⟩
    | idle he h =>
      obtain ⟨t, k, l, h1, h2, rfl⟩ := ih h
      exact ⟨t, k, l, .idle he h1, h2, rfl⟩

/-! ### The snapshot -/

/-- A step leaves the key snapshot alone. -/
theorem step_keys {w : UInt16} (h : s.step = .ok (t, w)) : t.keys = s.keys := by
  obtain ⟨-, he⟩ := step_eq_ok_iff.mp h
  obtain ⟨i, -, hp⟩ := execute_eq_ok_iff.mp he
  exact (perform_frame hp).keys

/-- A word of the form `FX0A`. -/
theorem word_awaitKey {w : UInt16} (h : w &&& 0xF0FF = 0xF00A) :
    (Instruction.awaitKey (Word.nibble w 2)).word = w.toNat := by
  have hw : w.toNat &&& 0xF0FF = 0xF00A := congrArg UInt16.toNat h
  have low : w.toNat % 256 = 0x0A := by
    have : w.toNat &&& 0xF0FF &&& 2 ^ 8 - 1 = w.toNat % 2 ^ 8 := by
      rw [Nat.and_assoc]
      exact Nat.and_two_pow_sub_one_eq_mod w.toNat 8
    rw [hw] at this
    exact this.symm
  have high : w.toNat / 4096 % 16 = 0xF := by
    have : (w.toNat &&& 0xF0FF) >>> 12 = w.toNat / 4096 % 16 := by
      rw [Nat.shiftRight_and_distrib, Nat.shiftRight_eq_div_pow w.toNat]
      exact Nat.and_two_pow_sub_one_eq_mod (w.toNat / 4096) 4
    rw [hw] at this
    exact this.symm
  have := w.toNat_lt
  have hx : (Word.nibble w 2).val = w.toNat / 256 % 16 := by rfl
  have hk : (0x0A : UInt8).toNat = 10 := rfl
  have hf : ((15 : Fin 16) : Nat) = 15 := rfl
  simp only [Instruction.word, Instruction.layout, Operands.word, hx, hk, hf]
  omega

/-- Only a step that sees no key down waits for one. -/
theorem keys_of_waits {w : UInt16} (h : s.step = .ok (t, w)) (hw : s.waits t w = true) :
    s.keys.any = false := by
  obtain ⟨-, he⟩ := step_eq_ok_iff.mp h
  obtain ⟨i, hi, hp⟩ := execute_eq_ok_iff.mp he
  rw [waits, Bool.and_eq_true, beq_iff_eq, beq_iff_eq] at hw
  obtain rfl : i = .awaitKey (Word.nibble w 2) :=
    Instruction.word_injective ((Int.ofNat_inj.mp hi).trans (word_awaitKey hw.1).symm)
  have hpc : (Instruction.awaitKey (Word.nibble w 2)).next s % 65536 = s.pc.toNat := by
    rw [← hw.2, perform_skip_pc hp]
    exact UInt16.toNat_ofNat'.symm
  cases hk : s.keys.any with
  | false => rfl
  | true =>
    have hn : (Instruction.awaitKey (Word.nibble w 2)).next s = s.pc.toNat + 2 := if_pos hk
    have := s.pc.toNat_lt
    omega

/-- The snapshot is what was copied last. -/
theorem Replay.keys (h : Replay s es t n) :
    t.keys = ((es.filterMap synced?).getLast?).getD s.keys := by
  induction h with
  | nil => rfl
  | completed hs _ _ ih | held hs _ _ ih => exact ih.trans (by rw [step_keys hs]; rfl)
  | faulted _ _ ih => exact ih
  | @synced _ _ keys _ _ _ ih =>
    have hk : (Event.synced keys).synced? = some keys := rfl
    rw [ih, List.filterMap_cons_some hk, List.getLast?_cons]
    rfl
  | ticked _ ih => exact ih
  | @idle _ _ e _ _ he _ ih =>
    have hk : e.synced? = none := by
      cases e with
      | synced _ => cases he
      | _ => rfl
    rw [ih, List.filterMap_cons_none hk]

end State

end Chip8
