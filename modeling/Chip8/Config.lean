import Chip8.Color
import Chip8.Config.Override
import Chip8.Machine

/-!
# Configuration

The settings of a run from the command line.  They have defaults, except for the program, and are
overridden by words; of two words for one key the later one counts.  A setting may be overridden by a
value of any kind, and whether it is of use is seen where it is used.
-/

namespace Chip8

/-- How displays are drawn: two settings, or a value that was put in their place. -/
inductive Rendering where
  | settings (scale colorScheme : Value)
  | replaced (v : Value)

structure Config where
  rom : Value := .text "???"
  machine : Settings := {}
  seed : Value := .int 0
  logLevel : Value := .text "INFO"
  render : Rendering := .settings (.int 8) (.text Palette.defaultName)
  /-- Frames to run without a window; a window is opened unless it is positive. -/
  headlessFrames : Value := .int 0
  video : Value := .none

namespace Config

inductive Error where
  | malformed (e : Override.Error)
  | unknownKey (key : String)
  deriving DecidableEq, Repr

/-- The text of a setting that is still missing. -/
def missing : String := "???"

def isMissing : Value → Bool
  | .text s => s = missing
  | _ => false

/-! ### Overrides -/

def set (c : Config) (o : Override) : Except Error Config :=
  let v := o.value
  let m := c.machine
  match o.key, c.render with
  | "rom", _ => .ok { c with rom := v }
  | "legacy_mode", _ => .ok { c with machine := { m with legacyMode := v } }
  | "instruction_frequency", _ => .ok { c with machine := { m with instructionFrequency := v } }
  | "fps", _ => .ok { c with machine := { m with fps := v } }
  | "seed", _ => .ok { c with seed := v }
  | "log_level", _ => .ok { c with logLevel := v }
  | "log_interval", _ => .ok { c with machine := { m with logInterval := v } }
  | "render", _ => .ok { c with render := .replaced v }
  | "render.scale", .settings _ scheme => .ok { c with render := .settings v scheme }
  | "render.color_scheme", .settings scale _ => .ok { c with render := .settings scale v }
  | "headless_frames", _ => .ok { c with headlessFrames := v }
  | "video", _ => .ok { c with video := v }
  | key, _ => .error (.unknownKey key)

/-- The configuration with all words in order.  They are read before any of them counts. -/
def ofWords (words : List String) : Except Error Config := do
  let overrides ← (words.mapM Override.ofWord).mapError .malformed
  overrides.foldlM set {}

/-! ### Rendering -/

def scale (c : Config) : Except Misuse Value :=
  match c.render with
  | .settings scale _ => .ok scale
  | .replaced v => .error (.member v.kind "scale")

def colorScheme (c : Config) : Except Misuse Value :=
  match c.render with
  | .settings _ scheme => .ok scheme
  | .replaced v => .error (.member v.kind "color_scheme")

end Config

end Chip8
