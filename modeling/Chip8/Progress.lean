import Chip8.Value

/-!
# Progress of a headless run

A bar that counts frames up to a total.
-/

namespace Chip8

structure Progress where
  total : Int
  description : String
  unit : String := "frame"
  initial : Int := 0
  /-- The bar stays on the screen when it is done. -/
  leave : Value := .bool true
  done : Int := initial

namespace Progress

def ofFrames (total : Int) (description : Option String) (initial : Int) (leave : Value) :
    Progress where
  total
  description := description.getD ("Emulating (" ++ Numeral.grouped total ++ " frames)")
  initial
  leave

def update (p : Progress) (n : Int) : Progress := { p with done := p.done + n }

end Progress

end Chip8
