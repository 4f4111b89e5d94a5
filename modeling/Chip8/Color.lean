import Chip8.Number.Numeral

/-!
# Colours and palettes

A palette names the colours of lit and of unlit pixels.
-/

namespace Chip8

structure Rgb where
  red : UInt8
  green : UInt8
  blue : UInt8
  deriving DecidableEq, Repr

/-- The channels in the order red, green, blue. -/
def Rgb.channels (c : Rgb) : List Int := [c.red.toNat, c.green.toNat, c.blue.toNat]

/-- The same colour with its channels in the order blue, green, red. -/
structure Bgr where
  blue : UInt8
  green : UInt8
  red : UInt8
  deriving DecidableEq, Repr

def Rgb.bgr (c : Rgb) : Bgr := ⟨c.blue, c.green, c.red⟩

structure Palette where
  on : Rgb
  off : Rgb
  deriving DecidableEq, Repr

namespace Palette

def named : List (String × Palette) :=
  [("classic", ⟨⟨0, 255, 0⟩, ⟨0, 0, 0⟩⟩),
   ("amber", ⟨⟨255, 176, 0⟩, ⟨0, 0, 0⟩⟩),
   ("white", ⟨⟨255, 255, 255⟩, ⟨0, 0, 0⟩⟩),
   ("blue", ⟨⟨0, 255, 255⟩, ⟨0, 0, 64⟩⟩),
   ("retro", ⟨⟨255, 255, 0⟩, ⟨64, 0, 64⟩⟩),
   ("octo", ⟨⟨255, 204, 0⟩, ⟨153, 102, 0⟩⟩)]

/-- The palette that is used where none is named. -/
def defaultName : String := "classic"

inductive Error where
  | unknown (name : String)
  deriving DecidableEq, Repr

def Error.message : Error → String
  | unknown name =>
    "Unknown color scheme '" ++ name ++ "'. Available: [" ++
      ", ".intercalate (named.map fun (n, _) => "'" ++ n ++ "'") ++ "]"

def ofName (name : String) : Except Error Palette :=
  match named.lookup name with
  | some p => .ok p
  | none => .error (.unknown name)

/-- A name is accepted exactly if it is listed. -/
theorem ofName_isOk_iff (name : String) :
    (∃ p, ofName name = .ok p) ↔ name ∈ named.map Prod.fst := by
  have hs : (named.lookup name).isSome = true ↔ name ∈ named.map Prod.fst := by
    rw [List.lookup_isSome_iff, List.mem_map]
    exact ⟨fun ⟨e, he, h⟩ => ⟨e, he, (beq_iff_eq.mp h).symm⟩,
      fun ⟨e, he, h⟩ => ⟨e, he, beq_iff_eq.mpr h.symm⟩⟩
  rw [← hs, Option.isSome_iff_exists]
  unfold ofName
  cases named.lookup name <;> simp

end Palette

end Chip8
