import Chip8.Config
import Chip8.Yaml.Scalar

/-!
# The configuration in YAML

Block style, two spaces for each level, in a fixed order of keys.
-/

namespace Chip8.Config

open Yaml

/-- An entry of a mapping that is indented by `indent`.  A value of several lines is indented by one
level more. -/
def yamlEntry (indent : Nat) (key : String) (v : Value) : String :=
  let name := List.replicate indent ' ' ++ key.toList ++ [':', ' ']
  String.ofList (name ++ scalar (indent + 2) name.length v)

def yamlRender : Rendering → List String
  | .settings scale scheme => ["render:", yamlEntry 2 "scale" scale, yamlEntry 2 "color_scheme" scheme]
  | .replaced v => [yamlEntry 0 "render" v]

/-- The entries of the document. -/
def yamlEntries (c : Config) : List String :=
  [yamlEntry 0 "rom" c.rom,
   yamlEntry 0 "legacy_mode" c.machine.legacyMode,
   yamlEntry 0 "instruction_frequency" c.machine.instructionFrequency,
   yamlEntry 0 "fps" c.machine.fps,
   yamlEntry 0 "seed" c.seed,
   yamlEntry 0 "log_level" c.logLevel,
   yamlEntry 0 "log_interval" c.machine.logInterval] ++
  yamlRender c.render ++
  [yamlEntry 0 "headless_frames" c.headlessFrames,
   yamlEntry 0 "video" c.video]

def yaml (c : Config) : String := String.join (c.yamlEntries.map (· ++ "\n"))

end Chip8.Config
