import Chip8.Proofs.Loading
import Chip8.Proofs.Session.Timers

/-!
# Another sound timer

Only one instruction writes the sound timer, only the end of a frame counts it down, and no instruction
reads it.  So a machine with another sound timer does the same, and once the timer is set there is no
difference left.

* `State.tuned`, `Machine.tuned`   the state, or the machine, with another sound timer;
* `State.perform_tuned`            it goes through an instruction unnoticed;
* `State.step_tuned`               a step that sets the timer forgets it, any other one keeps it;
* `Machine.SameButSound`           two machines that differ in the sound timer at most;
* `Machine.Deaf`                   what becomes of a machine without a look at the sound timer;
* `Machine.SameButSound.step_cases`, `stepped`   two such machines take the same step.
-/

namespace Chip8

namespace State
open Instruction

variable {s : State} {i : Instruction}

def tuned (s : State) (n : UInt8) : State := { s with sound := n }

theorem tuned_skipIf (s : State) (n : UInt8) (c : Bool) :
    (s.tuned n).skipIf c = (s.skipIf c).tuned n := by
  cases c <;> rfl

theorem tuned_moveIndex (s : State) (n : UInt8) (k : Nat) :
    (s.tuned n).moveIndex k = (s.moveIndex k).tuned n := by
  unfold moveIndex
  show (if s.legacy then _ else _) = _
  split <;> rfl

theorem tuned_arith (s : State) (n : UInt8) (op : Arith) (x y : Fin 16) :
    (s.tuned n).arith op x y = (s.arith op x y).tuned n := by
  cases op <;> rfl

/-- An instruction that does not set the timer leaves it as it is, and does not look at it. -/
theorem perform_tuned (n : UInt8) (h : ∀ x, i ≠ .setSound x) :
    (s.tuned n).perform i = (s.perform i).map (tuned · n) := by
  cases i with
  | «return» =>
    rw [perform_return, perform_return, apply_ite (Except.map _)]
    rfl
  | call a =>
    rw [perform_call, perform_call, apply_ite (Except.map _)]
    rfl
  | skipIfEqual x k | skipUnlessEqual x k | skipIfSame x y | skipUnlessSame x y =>
    exact congrArg Except.ok (tuned_skipIf s n _)
  | arith op x y => exact congrArg Except.ok (tuned_arith s n op x y)
  | draw x y k =>
    rw [perform_draw, perform_draw, apply_ite (Except.map _), apply_ite (Except.map _)]
    rfl
  | skipIfKey x =>
    rw [perform_skipIfKey, perform_skipIfKey, apply_dite (Except.map _)]
    exact dite_congr rfl (fun _ => congrArg Except.ok (tuned_skipIf s n _)) fun _ => rfl
  | skipUnlessKey x =>
    rw [perform_skipUnlessKey, perform_skipUnlessKey, apply_dite (Except.map _)]
    exact dite_congr rfl (fun _ => congrArg Except.ok (tuned_skipIf s n _)) fun _ => rfl
  | awaitKey x =>
    have hkeys : (s.tuned n).keys.lowest? = s.keys.lowest? := rfl
    rw [perform, perform, hkeys]
    cases s.keys.lowest? <;> rfl
  | setSound x => exact absurd rfl (h x)
  | glyph x =>
    rw [perform_glyph, perform_glyph, apply_ite (Except.map _)]
    rfl
  | digits x =>
    rw [perform_digits, perform_digits, apply_ite (Except.map _)]
    rfl
  | saveRegisters x =>
    have hmove := tuned_moveIndex { s with memory := s.memory.store s.index.toNat (s.saved x) } n
    rw [perform_saveRegisters, perform_saveRegisters, apply_ite (Except.map _)]
    exact ite_congr rfl (fun _ => rfl) fun _ => congrArg Except.ok (hmove _)
  | loadRegisters x =>
    have hmove := tuned_moveIndex { s with v := replaceV s.v (s.atIndex (x.val + 1)) } n
    rw [perform_loadRegisters, perform_loadRegisters, apply_ite (Except.map _)]
    exact ite_congr rfl (fun _ => rfl) fun _ => congrArg Except.ok (hmove _)
  | _ => rfl

/-- The state that the word leaves with the sound timer `n`, unless it sets the timer. -/
def retuned (t : State) (n : UInt8) (w : UInt16) : State :=
  if Timer.sound.sets (.executed w) then t else t.tuned n

theorem execute_tuned (s : State) (n : UInt8) (w : UInt16) :
    (s.tuned n).execute w.toNat = (s.execute w.toNat).map (retuned · n w) := by
  cases hd : decode w.toNat with
  | error c =>
    rw [execute, execute, hd]
    rfl
  | ok i =>
    have hi : i.word = w.toNat := Int.ofNat.inj (decode_eq_ok_iff.mp hd)
    have hp : (s.skip.tuned n).perform i = (s.skip.perform i).map (retuned · n w) := by
      by_cases h : ∃ x, i = .setSound x
      · obtain ⟨x, rfl⟩ := h
        have hsets : Timer.sound.sets (.executed w) = true := decide_eq_true ⟨x, hi.symm⟩
        simp only [retuned, hsets, if_true]
        rfl
      · have hsets : Timer.sound.sets (.executed w) = false := by
          refine Timer.sets_executed.mpr fun x hx => h ⟨x, ?_⟩
          exact word_injective (hi.trans hx)
        simp only [retuned, hsets, Bool.false_eq_true, if_false]
        exact perform_tuned n fun x hx => h ⟨x, hx⟩
    have hskip : (s.tuned n).skip = s.skip.tuned n := rfl
    rw [execute_of_decode hd, execute_of_decode hd, hskip, hp]
    cases s.skip.perform i with
    | ok t => rfl
    | error c => rfl

theorem step_tuned (s : State) (n : UInt8) :
    (s.tuned n).step = s.step.map fun r => (r.1.retuned n r.2, r.2) := by
  have hfetch : (s.tuned n).fetch = s.fetch := rfl
  cases hf : s.fetch with
  | error f =>
    rw [step, step, hfetch, hf]
    rfl
  | ok w =>
    rw [step_of_fetch hf, step_of_fetch (hfetch.trans hf), execute_tuned]
    cases s.execute w.toNat with
    | ok t => rfl
    | error f => rfl

end State

/-! ### Machines -/

namespace Machine

variable {m m' : Machine} {f : Machine → Machine} {w : UInt16}

def tuned (m : Machine) (n : UInt8) : Machine := { m with state := m.state.tuned n }

/-- The machine is the other one with another sound timer, or the same. -/
def SameButSound (m m' : Machine) : Prop := ∃ n, m = m'.tuned n

theorem SameButSound.refl (m : Machine) : m.SameButSound m := ⟨m.state.sound, rfl⟩

theorem SameButSound.of_eq (h : m = m') : m.SameButSound m' := h ▸ .refl m

/-- What the sound timer is makes no difference, except to the sound timer afterwards. -/
def Deaf (f : Machine → Machine) : Prop := ∀ m n, ∃ k, f (m.tuned n) = (f m).tuned k

theorem Deaf.keeps (hf : Deaf f) (h : m.SameButSound m') : (f m).SameButSound (f m') := by
  obtain ⟨n, rfl⟩ := h
  exact hf m' n

theorem deaf_load (program : List UInt8) : Deaf fun m =>
    { m with
      state := { m.state with memory := m.state.memory.store 0x200 program }
      program } :=
  fun _ n => ⟨n, rfl⟩

/-- A reset takes the timer down, so nothing is left of the difference. -/
theorem deaf_renewed : Deaf renewed := fun _ _ => ⟨0, rfl⟩

theorem deaf_tick : Deaf tick := fun _ _ => ⟨_, rfl⟩

/-- Both machines execute the same word or meet the same fault. -/
theorem SameButSound.step_cases (h : m.SameButSound m') :
    (∃ f, m.state.step = .error f ∧ m'.state.step = .error f) ∨
      ∃ a b w, m.state.step = .ok (a, w) ∧ m'.state.step = .ok (b, w) := by
  obtain ⟨n, rfl⟩ := h
  have hstep : (m'.tuned n).state.step = m'.state.step.map fun r => (r.1.retuned n r.2, r.2) :=
    m'.state.step_tuned n
  rw [hstep]
  cases m'.state.step with
  | error f => exact .inl ⟨f, rfl, rfl⟩
  | ok r => exact .inr ⟨_, r.1, r.2, rfl, rfl⟩

/-- If the word sets the sound timer, the machines are the same from then on. -/
theorem SameButSound.stepped (h : m.SameButSound m') {a b : State}
    (hm : m.state.step = .ok (a, w)) (hm' : m'.state.step = .ok (b, w)) :
    (m.stepped a w).SameButSound (m'.stepped b w) ∧
      (Timer.sound.sets (.executed w) = true → m.stepped a w = m'.stepped b w) := by
  obtain ⟨n, rfl⟩ := h
  have hstep : (m'.tuned n).state.step = .ok (b.retuned n w, w) := by
    show (m'.state.tuned n).step = _
    rw [State.step_tuned, hm']
    rfl
  rw [hstep] at hm
  cases hm
  cases hsets : Timer.sound.sets (.executed w) with
  | true =>
    rw [State.retuned, if_pos hsets]
    exact ⟨.refl _, fun _ => rfl⟩
  | false =>
    rw [State.retuned, hsets, if_neg Bool.false_ne_true]
    exact ⟨⟨n, rfl⟩, nofun⟩

end Machine

end Chip8
