import Chip8.Proofs.Loading
import Chip8.Proofs.Session.Moves

/-!
# Histories of a session

The one who owns a machine loads programs, steps it, has it run frames, resets it, and so on, in any
order and with any devices.  An operation that fails is followed by the next one all the same.

* `Operation`, `after`   an operation, and a list of them one after the other;
* `outcomes`             what each of them comes to;
* `Operation.program?`   the program that an operation puts into memory, if it is one that does;
* `exec_act_load_cases`  what such an operation comes to;
* `exec_act_goes`        any other operation goes by moves, or does not touch the machine but for the
                         live keypad, and nothing happens.
-/

namespace Chip8

inductive Operation (σ : Type) where
  | load (program : List UInt8)
  | loadFile (name : String) (contents : Except File.Error (List UInt8))
  | reset
  | syncKeypad
  | step
  | runFrame (devices : Peripherals σ) (fuel : Nat) (paced : Bool)
  | run (devices : Peripherals σ) (fuel : Nat) (limit : Option Int) (paced : Bool)
  | stop
  /-- Keys are pressed or released. -/
  | keypad (change : Keypad → Except Keypad.Error Keypad)
  | advance (seconds : Float)
  /-- The devices get a new state, and the waits to come a new script. -/
  | equip (devices : σ) (script : List (List Keypad.Change))

variable {σ : Type}

namespace Operation
open Session

def act : Operation σ → Act σ
  | load program => Session.load program
  | loadFile name contents => Session.loadFile name contents
  | reset => Session.reset
  | syncKeypad => Session.syncKeypad
  | step => do let _ ← Session.step
  | runFrame devices fuel paced => Session.runFrame devices fuel paced
  | run devices fuel limit paced => Session.run devices fuel limit paced
  | stop => Session.stop
  | keypad change => onKeypad change
  | advance seconds => Session.advance seconds
  | equip devices script => modify fun s => { s with devices, script }

def program? : Operation σ → Option (List UInt8)
  | load program => some program
  | loadFile _ (.ok program) => some program
  | _ => none

end Operation

namespace Session

def after (s : Session σ) (ops : List (Operation σ)) : Session σ :=
  ops.foldl (fun s o => (exec o.act s).2) s

/-- What each of the operations comes to. -/
def outcomes (s : Session σ) : List (Operation σ) → List (Except Failure Unit)
  | [] => []
  | o :: ops => (exec o.act s).1 :: (exec o.act s).2.outcomes ops

theorem after_cons (s : Session σ) (o : Operation σ) (ops : List (Operation σ)) :
    s.after (o :: ops) = (s.after [o]).after ops := rfl

theorem after_append (s : Session σ) (ops ops' : List (Operation σ)) :
    s.after (ops ++ ops') = (s.after ops).after ops' := List.foldl_append

theorem exec_load_ok {s : Session σ} {program : List UInt8} {m : Machine}
    (h : s.machine.load program = .ok m) :
    exec (load program) s = (.ok (), { s with machine := m }) := by
  rw [load, exec_get_bind]
  simp only [h]
  rfl

theorem exec_load_error {s : Session σ} {program : List UInt8} {c : Cause}
    (h : s.machine.load program = .error c) :
    exec (load program) s = (.error (.fault { cause := c }), s) := by
  rw [load, exec_get_bind]
  simp only [h]
  rfl

/-- The machine takes the program, and a file that was loaded is told in the log; or it refuses it, and
nothing changes. -/
theorem exec_act_load_cases {o : Operation σ} {program : List UInt8} (h : o.program? = some program)
    (s : Session σ) :
    (∃ (m : Machine) (lines : List String), s.machine.load program = .ok m ∧
      exec o.act s = (.ok (), { s with machine := m }.log (lines.map .printed))) ∨
    ∃ c, s.machine.load program = .error c ∧
      exec o.act s = (.error (.fault { cause := c }), s) := by
  cases hm : s.machine.load program with
  | ok m =>
    left
    have hx := exec_load_ok hm
    cases o with
    | load p =>
      cases h
      refine ⟨m, [], rfl, hx.trans ?_⟩
      rw [List.map_nil, log_nil]
    | loadFile name contents =>
      cases contents with
      | error e => cases h
      | ok p =>
        cases h
        exact ⟨m, _, rfl, (exec_bind_ok hx _).trans (exec_print _ _)⟩
    | _ => cases h
  | error c =>
    right
    have hx := exec_load_error hm
    cases o with
    | load p =>
      cases h
      exact ⟨c, rfl, hx⟩
    | loadFile name contents =>
      cases contents with
      | error e => cases h
      | ok p =>
        cases h
        exact ⟨c, rfl, exec_bind_error hx _⟩
    | _ => cases h

/-- What a load leaves of the machine. -/
theorem exec_act_load {o : Operation σ} {program : List UInt8} (h : o.program? = some program)
    (s : Session σ) : (exec o.act s).2.machine =
      match s.machine.load program with
      | .ok machine => machine
      | .error _ => s.machine := by
  obtain ⟨m, lines, hm, hx⟩ | ⟨c, hm, hx⟩ := exec_act_load_cases h s
  · rw [hx, hm]
    rfl
  · rw [hx, hm]

/-- Nothing happens in a load but what the log tells. -/
theorem exec_act_load_trace {o : Operation σ} {program : List UInt8} (h : o.program? = some program)
    (s : Session σ) :
    ∃ lines : List String, (exec o.act s).2.trace = s.trace ++ (lines.map Event.printed).toArray := by
  obtain ⟨m, lines, -, hx⟩ | ⟨c, -, hx⟩ := exec_act_load_cases h s
  · exact ⟨lines, by rw [hx]; rfl⟩
  · exact ⟨[], by rw [hx]; exact Array.append_empty.symm⟩

/-- The devices may ask for anything. -/
abbrev anything (_ : Request) : Prop := True

theorem ask_anything (devices : Peripherals σ) : devices.Ask anything where
  poll _ _ _ _ _ _ _ _ := trivial
  sound _ _ _ _ _ _ _ _ := trivial
  render _ _ _ _ _ _ _ _ _ := trivial

theorem exec_act_goes {o : Operation σ} (h : o.program? = none) (s : Session σ) :
    (∃ devices r, Goes devices anything s r (exec o.act s).2) ∨
    ∃ p, (exec o.act s).2.machine = { s.machine with keypad := p } ∧
      (exec o.act s).2.trace = s.trace := by
  cases o with
  | load program => cases h
  | loadFile name contents =>
    cases contents with
    | ok program => cases h
    | error e => exact .inr ⟨_, rfl, rfl⟩
  | reset => exact .inl ⟨.none, _, Does.reset trivial s⟩
  | syncKeypad => exact .inl ⟨.none, _, Does.syncKeypad s⟩
  | step => exact .inl ⟨.none, _, Does.step.bind (fun _ => .pure ()) s⟩
  | runFrame devices fuel paced => exact .inl ⟨devices, _, Does.runFrame (ask_anything devices) fuel paced s⟩
  | run devices fuel limit paced =>
    exact .inl ⟨devices, _, Does.run (ask_anything devices) trivial fuel limit paced s⟩
  | stop => exact .inl ⟨.none, _, Does.stop trivial s⟩
  | keypad change =>
    right
    show ∃ p, (exec (onKeypad change) s).2.machine = _ ∧ (exec (onKeypad change) s).2.trace = _
    cases hc : change s.machine.keypad with
    | ok p => exact ⟨p, by rw [exec_onKeypad_ok hc], by rw [exec_onKeypad_ok hc]⟩
    | error e =>
      exact ⟨s.machine.keypad, by rw [exec_onKeypad_error hc], by rw [exec_onKeypad_error hc]⟩
  | advance seconds => exact .inl ⟨.none, _, Does.advance seconds s⟩
  | equip devices script => exact .inr ⟨s.machine.keypad, rfl, rfl⟩

end Session

end Chip8
