import Chip8.Execute

/-!
# Runs

Whoever drives a state steps it, ticks its timers, replaces its key snapshot and loads programs, in
any order and any number of times.  An action that is refused leaves the state as it was.

* `State.act`, `State.after`   one action, and a list of them one after the other;
* `State.Reachable`            the states after any actions from an initial one;
* `Reachable.induction`        what holds initially and is kept by each action holds of all of them.
-/

namespace Chip8

inductive Action where
  | step
  | tick
  | snapshot (keys : Keys)
  | load (program : List UInt8)
  deriving DecidableEq

namespace State

def act (s : State) : Action → State
  | .step =>
    match s.step with
    | .ok (t, _) => t
    | .error _ => s
  | .tick => s.tick
  | .snapshot keys => { s with keys }
  | .load program =>
    match s.load program with
    | .ok t => t
    | .error _ => s

def after (s : State) (actions : List Action) : State := actions.foldl act s

def Reachable (s : State) : Prop :=
  ∃ rng legacy actions, (initial rng legacy).after actions = s

variable {s t : State}

theorem after_cons (s : State) (a : Action) (as : List Action) :
    s.after (a :: as) = (s.act a).after as := rfl

theorem after_append (s : State) (as bs : List Action) :
    s.after (as ++ bs) = (s.after as).after bs := List.foldl_append

theorem reachable_initial (rng : RandomKey) (legacy : Bool) : (initial rng legacy).Reachable :=
  ⟨rng, legacy, [], rfl⟩

theorem Reachable.after (h : s.Reachable) (actions : List Action) :
    (s.after actions).Reachable := by
  obtain ⟨rng, legacy, as, rfl⟩ := h
  exact ⟨rng, legacy, as ++ actions, after_append _ as actions⟩

/-- What each action keeps is kept by any number of them. -/
theorem after_induction {P : State → Prop} (hact : ∀ t a, P t → P (t.act a)) (hs : P s)
    (actions : List Action) : P (s.after actions) := by
  induction actions generalizing s with
  | nil => exact hs
  | cons a as ih => exact ih (hact s a hs)

theorem Reachable.induction {P : State → Prop} (hinit : ∀ rng legacy, P (initial rng legacy))
    (hact : ∀ t a, P t → P (t.act a)) (h : s.Reachable) : P s := by
  obtain ⟨rng, legacy, actions, rfl⟩ := h
  exact after_induction hact (hinit rng legacy) actions

/-! ### What the actions do -/

theorem act_step_of_ok {w : UInt16} (h : s.step = .ok (t, w)) : s.act .step = t := by
  rw [act, h]

/-- A step has an effect, or it is refused. -/
theorem act_step_cases (s : State) :
    (∃ w, s.step = .ok (s.act .step, w)) ∨ s.act .step = s := by
  cases h : s.step with
  | ok r =>
    obtain ⟨t, w⟩ := r
    exact .inl ⟨w, by rw [act_step_of_ok h]⟩
  | error f => exact .inr (by rw [act, h])

/-- Loading touches the memory only. -/
theorem act_load (s : State) (program : List UInt8) :
    ∃ m, s.act (.load program) = { s with memory := m } := by
  cases h : s.memory.load program with
  | ok m => exact ⟨m, by rw [act, load, h]; rfl⟩
  | error c => exact ⟨s.memory, by rw [act, load, h]; rfl⟩

end State

end Chip8
