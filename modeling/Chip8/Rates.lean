import Chip8.Number.Bounds
import Chip8.Value

/-!
# Rates

Instructions per second and frames per second.  A frame runs at least one instruction, because the
instruction rate is at least the frame rate.  The times are doubles, so a rate beyond their range has
none.
-/

namespace Chip8

structure Rates where
  frequency : Nat := 500
  fps : Nat := 60
  fps_pos : 0 < fps := by decide
  fps_le_frequency : fps ≤ frequency := by decide

namespace Rates

/-- The rates of a machine that is given none. -/
def standard : Rates := {}

/-- Why rates are refused.  The rates are stated as they were given. -/
inductive Error where
  | fps (fps : Value)
  | frequency (frequency fps : Value)
  | misuse (e : Misuse)

def Error.message : Error → String
  | fps n => "fps must be positive, got " ++ n.render
  | frequency f n =>
    "instruction_frequency (" ++ f.render ++ ") must be at least fps (" ++ n.render ++ ")"
  | misuse e => e.message

theorem toNat_pos {n : Int} (h : ¬ n ≤ 0) : 0 < n.toNat := by omega

theorem toNat_le {n f : Int} (h : ¬ f < n) : n.toNat ≤ f.toNat := by omega

/-- The frame rate is looked at first. -/
def ofValues (frequency fps : Value) : Except Error Rates :=
  match fps.int? with
  | none => .error (.misuse (.order .atMost fps.kind .whole))
  | some n =>
    if h : n ≤ 0 then .error (.fps fps)
    else match frequency.int? with
      | none => .error (.misuse (.order .less frequency.kind fps.kind))
      | some f =>
        if h' : f < n then .error (.frequency frequency fps)
        else .ok
          { frequency := f.toNat
            fps := n.toNat
            fps_pos := toNat_pos h
            fps_le_frequency := toNat_le h' }

def instructionsPerFrame (r : Rates) : Nat := r.frequency / r.fps

/-- Seconds per frame. -/
def frameDuration (r : Rates) : Except Number.Overflow Float := do
  return 1.0 / (← Number.double r.fps)

/-- Seconds per instruction, such that a frame's instructions fill the frame. -/
def period (r : Rates) : Except Number.Overflow Float := do
  return (← r.frameDuration) / (← Number.double r.instructionsPerFrame)

theorem instructionsPerFrame_pos (r : Rates) : 0 < r.instructionsPerFrame :=
  Nat.div_pos r.fps_le_frequency r.fps_pos

end Rates

end Chip8
