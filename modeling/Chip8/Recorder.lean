import Chip8.Peripherals

/-!
# Recording devices

A recorder keeps the displays that are rendered, or only counts them, and it counts the frames that
sound.  It may stand beside other devices: then it is told first of every sound and every display.
-/

namespace Chip8

structure Recorder where
  /-- Whether displays are kept, or only counted. -/
  keepFrames : Bool := true
  frames : Array Display := #[]
  framesRendered : Nat := 0
  soundFrames : Nat := 0

namespace Recorder

inductive Error where
  | noFrame
  deriving DecidableEq, Repr

def Error.message : Error → String
  | noFrame => "No frame has been rendered yet"

def render (r : Recorder) (display : Display) : Recorder :=
  { r with
    framesRendered := r.framesRendered + 1
    frames := if r.keepFrames then r.frames.push display else r.frames }

def sound (r : Recorder) : Recorder := { r with soundFrames := r.soundFrames + 1 }

def lastFrame (r : Recorder) : Except Error Display :=
  match r.frames.back? with
  | some d => .ok d
  | none => .error .noFrame

variable {σ : Type}

/-- What other devices do and ask for, with a recorder beside them. -/
def beside (r : Recorder) (called : σ × List (Turn σ)) :
    (Recorder × σ) × List (Turn (Recorder × σ)) :=
  ((r, called.1), called.2.map fun turn keys s => turn keys s.2)

end Recorder

/-- The devices with a recorder beside them. -/
def Peripherals.recording {σ : Type} (devices : Peripherals σ) : Peripherals (Recorder × σ) where
  poll keys s := s.1.beside (devices.poll keys s.2)
  sound keys s := s.1.sound.beside (devices.sound keys s.2)
  render display keys s := (s.1.render display).beside (devices.render display keys s.2)

end Chip8
