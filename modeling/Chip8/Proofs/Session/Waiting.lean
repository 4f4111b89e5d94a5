import Chip8.Proofs.Session.Frames
import Chip8.Proofs.Session.Operations

/-!
# Is the waiting flag true?

The flag says that the program is at a key wait.  It is kept beside the state, so whatever changes
the state has to keep the two in step.

* `Machine.AtKeyWait`   the word at the program counter is a key wait;
* `Machine.Honest`      the flag is raised only there;
* `Goes.honest`         no action of a machine makes the flag stale, except for loading a program;
* `waiting_honest`      over any history, the only thing that makes the flag stale is a program that
                        is loaded over a key wait;
* `waiting_stale`       that happens, and then the next frame waits for a key, too.
-/

namespace Chip8

namespace Machine

def AtKeyWait (m : Machine) : Prop := ∃ w, m.state.fetch = .ok w ∧ w &&& 0xF0FF = 0xF00A

def Honest (m : Machine) : Prop := m.waiting = true → m.AtKeyWait

variable {m m' : Machine}

theorem Honest.congr (h : m.Honest) (hwait : m'.waiting = m.waiting)
    (hpc : m'.state.pc = m.state.pc) (hmemory : m'.state.memory = m.state.memory) : m'.Honest := by
  intro hw
  obtain ⟨w, hf, hmask⟩ := h (hwait.symm.trans hw)
  refine ⟨w, ?_, hmask⟩
  have hfetch : m'.state.fetch = m.state.fetch := by
    rw [State.fetch, State.fetch, hpc, hmemory]
  exact hfetch.trans hf

/-- A key wait that found no key will be fetched again. -/
theorem honest_stepped {a : State} {w : UInt16} (h : m.state.step = .ok (a, w)) :
    (m.stepped a w).Honest := by
  intro hw
  have hw : m.state.waits a w = true := hw
  rw [State.waits, Bool.and_eq_true, beq_iff_eq, beq_iff_eq] at hw
  obtain ⟨hmask, hpc⟩ := hw
  obtain ⟨hfetch, hexec⟩ := State.step_eq_ok_iff.mp h
  obtain ⟨i, hi, hp⟩ := State.execute_eq_ok_iff.mp hexec
  obtain rfl : i = .awaitKey (Word.nibble w 2) :=
    Instruction.word_injective ((Int.ofNat_inj.mp hi).trans (State.word_awaitKey hmask).symm)
  have hmemory : a.memory = m.state.memory :=
    Vector.ext fun k hk => (State.perform_frame hp).memory k hk id
  refine ⟨w, ?_, hmask⟩
  show a.fetch = .ok w
  rw [← hfetch, State.fetch, State.fetch, hpc, hmemory]

theorem honest_of_reset (h : m.reset = .ok m') : m'.Honest := by
  rw [reset_eq_ok h]
  intro hw
  cases hw

end Machine

namespace Session

variable {σ : Type} {devices : Peripherals σ} {asks : Request → Prop} {s t : Session σ}
  {r : Except Failure Unit}

theorem Move.honest (h : Move devices asks s t) (hs : s.machine.Honest) : t.machine.Honest := by
  cases h with
  | aside es he htrace hmachine hdevices hscript =>
    rw [hmachine]
    exact hs
  | step h => exact Machine.honest_stepped h
  | reset h hrun hm => exact Machine.honest_of_reset hm
  | _ => exact hs.congr rfl rfl rfl

theorem Goes.honest (h : Goes devices asks s r t) (hs : s.machine.Honest) : t.machine.Honest := by
  induction h with
  | done | raise _ => exact hs
  | move hm _ ih => exact ih (hm.honest hs)
  | fault | script => exact hs.congr rfl rfl rfl
  | leave _ _ ih => exact (ih hs).congr rfl rfl rfl

/-- An operation makes the flag stale only by putting a program over a key wait. -/
theorem honest_after (hs : s.machine.Honest) (o : Operation σ) :
    (s.after [o]).machine.Honest ∨ ∃ program m, o.program? = some program ∧
      s.machine.waiting = true ∧ s.machine.load program = .ok m ∧ ¬ m.AtKeyWait := by
  show (exec o.act s).2.machine.Honest ∨ _
  cases ho : o.program? with
  | none =>
    left
    obtain ⟨devices, r, h⟩ | ⟨p, hp, -⟩ := exec_act_goes ho s
    · exact h.honest hs
    · rw [hp]
      exact hs.congr rfl rfl rfl
  | some program =>
    rw [exec_act_load ho]
    cases hm : s.machine.load program with
    | error c => exact .inl hs
    | ok m =>
      have hwait : m.waiting = s.machine.waiting := by
        rw [(Machine.load_eq_ok hm).2]
      by_cases hkey : m.AtKeyWait
      · exact .inl fun _ => hkey
      · cases hw : s.machine.waiting with
        | false =>
          left
          intro h
          rw [hwait, hw] at h
          cases h
        | true => exact .inr ⟨program, m, rfl, rfl, hm, hkey⟩

/-- **The waiting flag is stale only after a load over a key wait.**  Wherever a history leads to, the
flag is raised only at a key wait; or else a program was loaded while the machine was waiting, and
the word at its program counter was no key wait any more. -/
theorem waiting_honest (hs : s.machine.Honest) (ops : List (Operation σ)) :
    (s.after ops).machine.Honest ∨
    ∃ pre o post program m, ops = pre ++ o :: post ∧ o.program? = some program ∧
      (s.after pre).machine.waiting = true ∧ (s.after pre).machine.AtKeyWait ∧
      (s.after pre).machine.load program = .ok m ∧ ¬ m.AtKeyWait := by
  induction ops generalizing s with
  | nil => exact .inl hs
  | cons o ops ih =>
    rw [after_cons]
    obtain ho | ⟨program, m, ho, hw, hm, hkey⟩ := honest_after hs o
    · obtain h | ⟨pre, o', post, program, m, rfl, h⟩ := ih ho
      · exact .inl h
      · exact .inr ⟨o :: pre, o', post, program, m, rfl, h⟩
    · exact .inr ⟨[], o, ops, program, m, rfl, ho, hw, hs hw, hm, hkey⟩

/-- A step into a key wait raises the flag, and truly. -/
theorem waiting_honest_twoPerFrame : twoPerFrame.machine.Honest ∧
    (twoPerFrame.after [.step]).machine.waiting = true ∧
      (twoPerFrame.after [.step]).machine.AtKeyWait := by
  have hs : twoPerFrame.machine.Honest := nofun
  have hw : (twoPerFrame.after [.step]).machine.waiting = true := by decide +kernel
  refine ⟨hs, hw, ?_⟩
  obtain h | ⟨pre, o, post, program, m, hops, ho, -⟩ := waiting_honest hs [.step]
  · exact h hw
  · -- no operation of this history is a load
    have hmem : o ∈ [Operation.step] := by
      rw [hops]
      exact List.mem_append_right pre List.mem_cons_self
    rw [List.mem_singleton.mp hmem] at ho
    cases ho

/-- The program waits for a key, and another one is loaded over it.  The flag stays up although there
is no key wait, and the next frame executes nothing. -/
theorem waiting_stale :
    let s := twoPerFrame.after [.step, .load [0x60, 0x07], .equip () []]
    s.machine.waiting = true ∧ s.machine.state.fetch = .ok 0x6007 ∧ ¬ s.machine.AtKeyWait ∧
      ∃ t, exec (runFrame .none 1 false) s = (.ok (), t) ∧ t.machine.instructionCount = 0 := by
  intro s
  have hfetch : s.machine.state.fetch = .ok 0x6007 := by decide +kernel
  refine ⟨by decide +kernel, hfetch, ?_, ?_⟩
  · rintro ⟨w, hw, hmask⟩
    rw [hfetch] at hw
    cases hw
    cases hmask
  · rw [runFrame, exec_frame (by decide +kernel)]
    refine ⟨_, exec_eq_of_isOk ?_, ?_⟩
    · decide +kernel
    · decide +kernel

end Session

end Chip8
