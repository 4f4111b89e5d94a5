import Chip8.Number.Numeral

/-!
# Faults

A fault ends a run.  It has a cause, and a location that is filled in as far as it is known: the
word that was being executed and the address it was fetched from.
-/

namespace Chip8

/-- The classes of faults; `machine` is the class of all of them. -/
inductive FaultKind where
  | machine
  | decode
  | unknownInstruction
  | stackOverflow
  | stackUnderflow
  | invalidKey
  | invalidDigit
  | spriteHeight
  | memoryBounds
  | programTooLarge
  deriving DecidableEq, Repr

/-- Why the machine cannot go on. -/
inductive Cause where
  | notAWord (value : Int)
  | unknownInstruction (word : UInt16)
  | stackOverflow
  | stackUnderflow
  | keyIndex (register : Fin 16) (value : UInt8)
  | fontDigit (register : Fin 16) (value : UInt8)
  | spriteHeight (rows : Nat)
  | outOfBounds (address length : Int)
  | programTooLarge (bytes : Nat)
  /-- A cause that a host states in its own words. -/
  | stated (kind : FaultKind) (text : String)
  deriving DecidableEq, Repr

namespace Cause

def kind : Cause → FaultKind
  | notAWord _ => .decode
  | unknownInstruction _ => .unknownInstruction
  | stackOverflow => .stackOverflow
  | stackUnderflow => .stackUnderflow
  | keyIndex _ _ => .invalidKey
  | fontDigit _ _ => .invalidDigit
  | spriteHeight _ => .spriteHeight
  | outOfBounds _ _ => .memoryBounds
  | programTooLarge _ => .programTooLarge
  | stated kind _ => kind

open Numeral in
def message : Cause → String
  | notAWord w => "Unrecognized opcode family: 0x" ++ hex 0 w ++ " is not a 16-bit word"
  | unknownInstruction w => "Unknown instruction 0x" ++ hex 4 w.toNat
  | stackOverflow => "Stack overflow: call depth exceeds 16"
  | stackUnderflow => "Stack underflow: return with empty call stack"
  | keyIndex x v => "Key index V" ++ hex 0 x.val ++ "=0x" ++ hex 2 v.toNat ++ " is above 0xF"
  | fontDigit x v => "Font digit V" ++ hex 0 x.val ++ "=0x" ++ hex 2 v.toNat ++ " is above 0xF"
  | spriteHeight h => "Sprite height must be 1-15 rows, got " ++ decimal h
  | outOfBounds a n =>
    "Memory access out of bounds: 0x" ++ hex 0 a ++ "..0x" ++ hex 0 (a + n - 1)
  | programTooLarge n => "Program is " ++ decimal n ++ " bytes, at most 3584 fit at 0x200"
  | stated _ text => text

end Cause

structure Fault where
  cause : Cause
  instruction : Option Int := none
  pc : Option Int := none
  deriving DecidableEq, Repr

namespace Fault

def kind (f : Fault) : FaultKind := f.cause.kind

/-- The fault that a cause raises.  An unknown instruction names its word by itself. -/
def ofCause : Cause → Fault
  | .unknownInstruction w => { cause := .unknownInstruction w, instruction := some w.toNat }
  | c => { cause := c }

/-- Fill in what is not known yet of the location. -/
def locate (f : Fault) (instruction pc : Option Int) : Fault :=
  { f with instruction := f.instruction <|> instruction, pc := f.pc <|> pc }

/-- The location in words, in the order instruction, address. -/
def location (f : Fault) : List String :=
  (f.instruction.map fun w => "instruction 0x" ++ Numeral.hex 4 w).toList ++
    (f.pc.map fun a => "pc 0x" ++ Numeral.hex 3 a).toList

def message (f : Fault) : String :=
  match f.location with
  | [] => f.cause.message
  | parts => f.cause.message ++ " (" ++ ", ".intercalate parts ++ ")"

theorem locate_cause (f : Fault) (w a : Option Int) : (f.locate w a).cause = f.cause := rfl

end Fault

/-! ### Two steps of which each may fail -/

section
variable {ε α β : Type} {x : Except ε α} {f : α → Except ε β}

theorem bind_eq_ok_iff {b : β} : x >>= f = .ok b ↔ ∃ a, x = .ok a ∧ f a = .ok b := by
  cases x with
  | error e => simp [bind, Except.bind]
  | ok a => simp [bind, Except.bind]

theorem bind_eq_error_iff {e : ε} :
    x >>= f = .error e ↔ x = .error e ∨ ∃ a, x = .ok a ∧ f a = .error e := by
  cases x with
  | error e' => simp [bind, Except.bind]
  | ok a => simp [bind, Except.bind]

end

end Chip8
