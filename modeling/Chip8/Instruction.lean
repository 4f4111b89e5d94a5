import Chip8.Fault
import Chip8.Number.Bounds

/-!
# Instructions

A word of sixteen bits is read by its first nibble, the family: it fixes which operand fields the
rest of the word holds.  `Instruction` has one constructor for each instruction of the table, and
`Instruction.ofWord?` is undefined on the words that stand for none.
-/

namespace Chip8

/-- The operand fields of a word. -/
inductive Operands where
  | address (nnn : Fin 4096)
  | immediate (x : Fin 16) (kk : UInt8)
  | registers (x y n : Fin 16)
  deriving DecidableEq, Repr

namespace Word

/-- The nibble of `w` above `low` lower ones. -/
def nibble (w : UInt16) (low : Nat) : Fin 16 :=
  ⟨w.toNat / Nat.pow 16 low % 16, Nat.mod_lt _ (by decide)⟩

def family (w : UInt16) : Fin 16 := nibble w 3

def lowByte (w : UInt16) : UInt8 := w.toUInt8

def address (w : UInt16) : Fin 4096 := ⟨w.toNat % 4096, Nat.mod_lt _ (by decide)⟩

def operands (w : UInt16) : Operands :=
  match family w with
  | 0 | 1 | 2 | 0xA | 0xB => .address (address w)
  | 5 | 8 | 9 | 0xD => .registers (nibble w 2) (nibble w 1) (nibble w 0)
  | _ => .immediate (nibble w 2) (lowByte w)

/-- The word of an integer that is one. -/
def ofInt? (value : Int) : Except Cause UInt16 :=
  if 0 ≤ value ∧ value ≤ 0xFFFF then .ok (UInt16.ofNat value.toNat) else .error (.notAWord value)

end Word

/-- Operations that combine two registers. -/
inductive Arith where
  | set | or | and | xor | add | sub | subFrom | shiftRight | shiftLeft
  deriving DecidableEq, Repr

def Arith.ofNibble? : Fin 16 → Option Arith
  | 0x0 => some .set
  | 0x1 => some .or
  | 0x2 => some .and
  | 0x3 => some .xor
  | 0x4 => some .add
  | 0x5 => some .sub
  | 0x6 => some .shiftRight
  | 0x7 => some .subFrom
  | 0xE => some .shiftLeft
  | _ => none

inductive Instruction where
  /-- `00E0` -/
  | clearScreen
  /-- `00EE` -/
  | return
  /-- `1NNN` -/
  | jump (target : Fin 4096)
  /-- `2NNN` -/
  | call (target : Fin 4096)
  /-- `3XKK` -/
  | skipIfEqual (x : Fin 16) (value : UInt8)
  /-- `4XKK` -/
  | skipUnlessEqual (x : Fin 16) (value : UInt8)
  /-- `5XY0` -/
  | skipIfSame (x y : Fin 16)
  /-- `6XKK` -/
  | set (x : Fin 16) (value : UInt8)
  /-- `7XKK` -/
  | add (x : Fin 16) (value : UInt8)
  /-- `8XYN` -/
  | arith (op : Arith) (x y : Fin 16)
  /-- `9XY0` -/
  | skipUnlessSame (x y : Fin 16)
  /-- `ANNN` -/
  | setIndex (address : Fin 4096)
  /-- `BNNN` -/
  | jumpOffset (base : Fin 4096)
  /-- `CXKK` -/
  | random (x : Fin 16) (mask : UInt8)
  /-- `DXYN` -/
  | draw (x y rows : Fin 16)
  /-- `EX9E` -/
  | skipIfKey (x : Fin 16)
  /-- `EXA1` -/
  | skipUnlessKey (x : Fin 16)
  /-- `FX07` -/
  | readDelay (x : Fin 16)
  /-- `FX0A` -/
  | awaitKey (x : Fin 16)
  /-- `FX15` -/
  | setDelay (x : Fin 16)
  /-- `FX18` -/
  | setSound (x : Fin 16)
  /-- `FX1E` -/
  | addIndex (x : Fin 16)
  /-- `FX29` -/
  | glyph (x : Fin 16)
  /-- `FX33` -/
  | digits (x : Fin 16)
  /-- `FX55` -/
  | saveRegisters (last : Fin 16)
  /-- `FX65` -/
  | loadRegisters (last : Fin 16)
  deriving DecidableEq, Repr

namespace Instruction

/-- The instructions of family `F`, by the low byte. -/
def ofMisc? (x : Fin 16) : UInt8 → Option Instruction
  | 0x07 => some (.readDelay x)
  | 0x0A => some (.awaitKey x)
  | 0x15 => some (.setDelay x)
  | 0x18 => some (.setSound x)
  | 0x1E => some (.addIndex x)
  | 0x29 => some (.glyph x)
  | 0x33 => some (.digits x)
  | 0x55 => some (.saveRegisters x)
  | 0x65 => some (.loadRegisters x)
  | _ => none

/-- The instruction that a word stands for. -/
def ofWord? (w : UInt16) : Option Instruction :=
  match Word.family w, Word.operands w with
  | 0x0, .address _ =>
    if w = 0x00E0 then some .clearScreen else if w = 0x00EE then some .return else none
  | 0x1, .address a => some (.jump a)
  | 0x2, .address a => some (.call a)
  | 0x3, .immediate x kk => some (.skipIfEqual x kk)
  | 0x4, .immediate x kk => some (.skipUnlessEqual x kk)
  | 0x5, .registers x y n => if n = 0 then some (.skipIfSame x y) else none
  | 0x6, .immediate x kk => some (.set x kk)
  | 0x7, .immediate x kk => some (.add x kk)
  | 0x8, .registers x y n => (Arith.ofNibble? n).map fun op => .arith op x y
  | 0x9, .registers x y n => if n = 0 then some (.skipUnlessSame x y) else none
  | 0xA, .address a => some (.setIndex a)
  | 0xB, .address a => some (.jumpOffset a)
  | 0xC, .immediate x kk => some (.random x kk)
  | 0xD, .registers x y n => some (.draw x y n)
  | 0xE, .immediate x kk =>
    if kk = 0x9E then some (.skipIfKey x) else if kk = 0xA1 then some (.skipUnlessKey x) else none
  | 0xF, .immediate x kk => ofMisc? x kk
  | _, _ => none

def decode (value : Int) : Except Cause Instruction := do
  let w ← Word.ofInt? value
  match ofWord? w with
  | some i => return i
  | none => throw (.unknownInstruction w)

end Instruction

end Chip8
