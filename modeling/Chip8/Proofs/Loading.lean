import Chip8.Machine

/-!
# Loading and resetting

A program that fits is copied to its place, and nothing else of the state changes.  The machine then
remembers it.  A reset makes a new state and copies the remembered program into it.

* `Memory.load_eq`, `State.load_eq`, `Machine.load_eq`   a load, in one equation each;
* `Machine.reset_eq`   a reset; `Machine.renewed` is what it makes of the machine;
* `Machine.load_eq_ok`, `reset_eq_ok`, `create_eq_ok`    what a machine is that comes from one of these.
-/

namespace Chip8

theorem Memory.load_eq (m : Memory) (program : List UInt8) : m.load program =
    if 3584 < program.length then .error (.programTooLarge program.length)
    else .ok (m.store 0x200 program) := by
  rw [load]
  by_cases h : 3584 < program.length
  · rw [if_pos h, if_pos h]
  · have hrange : ¬ 4096 < programStart + program.length := by
      show ¬ 4096 < 0x200 + program.length
      omega
    rw [if_neg h, if_neg h, write_natCast, if_neg hrange]

theorem State.load_eq (s : State) (program : List UInt8) : s.load program =
    if 3584 < program.length then .error (.programTooLarge program.length)
    else .ok { s with memory := s.memory.store 0x200 program } := by
  rw [load, Memory.load_eq]
  split <;> rfl

namespace Machine
variable {m m' : Machine} {program : List UInt8}

theorem load_eq (m : Machine) (program : List UInt8) : m.load program =
    if 3584 < program.length then .error (.programTooLarge program.length)
    else .ok { m with
      state := { m.state with memory := m.state.memory.store 0x200 program }
      program } := by
  rw [load, State.load_eq]
  split <;> rfl

/-- The machine after a reset. -/
def renewed (m : Machine) : Machine :=
  { m with
    rng := m.rng.split.1
    state := { State.initial m.rng.split.2 m.legacy with memory := Memory.fresh.store 0x200 m.program }
    frameCount := 0
    instructionCount := 0
    waiting := false }

theorem reset_eq (m : Machine) : m.reset =
    if 3584 < m.program.length then .error (.programTooLarge m.program.length)
    else .ok m.renewed := by
  rw [reset]
  show ((State.initial m.rng.split.2 m.legacy).load m.program >>= _) = _
  rw [State.load_eq]
  split <;> rfl

theorem load_eq_ok (h : m.load program = .ok m') : program.length ≤ 3584 ∧
    m' = { m with
      state := { m.state with memory := m.state.memory.store 0x200 program }
      program } := by
  rw [load_eq] at h
  split at h
  · cases h
  · rename_i hlen
    exact ⟨Nat.le_of_not_lt hlen, (Except.ok.inj h).symm⟩

theorem reset_eq_ok (h : m.reset = .ok m') : m' = m.renewed := by
  rw [reset_eq] at h
  split at h
  · cases h
  · exact (Except.ok.inj h).symm

theorem create_eq_ok {settings : Settings} {rng : RandomKey} (h : create settings rng = .ok m) :
    ∃ rates, Rates.ofValues settings.instructionFrequency settings.fps = .ok rates ∧
      m = { settings, rates, legacy := settings.legacyMode.truthy, rng,
            state := .initial rng settings.legacyMode.truthy } := by
  obtain ⟨rates, hrates, hm⟩ := bind_eq_ok_iff.mp h
  exact ⟨rates, hrates, (Except.ok.inj hm).symm⟩

end Machine

end Chip8
