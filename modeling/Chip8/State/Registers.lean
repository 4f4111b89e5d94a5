import Chip8.Number.Numeral
import Chip8.State

/-!
# The register line

Program counter, index, call depth, timers and the sixteen registers on one line.
-/

namespace Chip8.State

open Numeral

def registerEntry (s : State) (x : Fin 16) : String :=
  "V" ++ hex 0 x.val ++ "=" ++ hex 2 (s.v.get x).toNat

def registerLine (s : State) : String :=
  "PC=" ++ hex 3 s.pc.toNat ++ " I=" ++ hex 3 s.index.toNat ++ " SP=" ++ decimal s.stack.depth ++
    " DT=" ++ decimal s.delay.toNat ++ " ST=" ++ decimal s.sound.toNat ++ " | " ++
    " ".intercalate ((List.finRange 16).map s.registerEntry)

end Chip8.State
