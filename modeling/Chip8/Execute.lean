import Chip8.Instruction
import Chip8.State

/-!
# Execution

The program counter is moved past a word before the word takes effect, so jumps, calls and skips act
on the address of the next word.  A fault leaves no trace: there is a new state or a fault, never
both.
-/

namespace Chip8

/-- The result of an operation on `VX` and `VY`, and the flag if it sets one.  `source` is the
operand of the shifts. -/
def Arith.apply (vx vy source : UInt8) : Arith → UInt8 × Option UInt8
  | .set => (vy, none)
  | .or => (vx ||| vy, none)
  | .and => (vx &&& vy, none)
  | .xor => (vx ^^^ vy, none)
  | .add => (vx + vy, some (if 0xFF < vx.toNat + vy.toNat then 1 else 0))
  | .sub => (vx - vy, some (if vy ≤ vx then 1 else 0))
  | .subFrom => (vy - vx, some (if vx ≤ vy then 1 else 0))
  | .shiftRight => (source >>> 1, some (source &&& 1))
  | .shiftLeft => (source <<< 1, some (source >>> 7))

namespace State

/-- The result goes to `VX` first and the flag to `VF` after it. -/
def arith (s : State) (op : Arith) (x y : Fin 16) : State :=
  let source := if s.legacy then s.v.get y else s.v.get x
  let (result, flag) := op.apply (s.v.get x) (s.v.get y) source
  match flag with
  | none => s.setV x result
  | some f => (s.setV x result).setV State.flag f

def skipIf (s : State) (condition : Bool) : State := if condition then s.skip else s

/-- The state of the key whose number `VX` holds. -/
def keyAt (s : State) (x : Fin 16) : Except Cause Bool :=
  let k := s.v.get x
  if h : k.toNat < 16 then .ok s.keys[k.toNat] else .error (.keyIndex x k)

/-- Hundreds, tens and ones. -/
def decimalDigits (value : UInt8) : List UInt8 :=
  [value / 100, value / 10 % 10, value % 10]

/-- The index after `n` registers were saved or loaded. -/
def moveIndex (s : State) (n : Nat) : State :=
  if s.legacy then { s with index := s.index + UInt16.ofNat n } else s

/-- The registers with the first ones replaced by `bytes`. -/
def replaceV (v : Vector UInt8 16) (bytes : List UInt8) : Vector UInt8 16 :=
  Vector.ofFn fun i => bytes[i.val]?.getD (v.get i)

/-- The effect of an instruction on a state whose program counter is already past it. -/
def perform (s : State) : Instruction → Except Cause State
  | .clearScreen => return { s with display := .blank }
  | .return => do
    let (address, stack) ← s.stack.pop
    return { s with stack, pc := address }
  | .jump target => return { s with pc := UInt16.ofNat target.val }
  | .call target => do
    let stack ← s.stack.push s.pc.toNat
    return { s with stack, pc := UInt16.ofNat target.val }
  | .skipIfEqual x value => return s.skipIf (s.v.get x == value)
  | .skipUnlessEqual x value => return s.skipIf (s.v.get x != value)
  | .skipIfSame x y => return s.skipIf (s.v.get x == s.v.get y)
  | .set x value => return s.setV x value
  | .add x value => return s.setV x (s.v.get x + value)
  | .arith op x y => return s.arith op x y
  | .skipUnlessSame x y => return s.skipIf (s.v.get x != s.v.get y)
  | .setIndex address => return { s with index := UInt16.ofNat address.val }
  | .jumpOffset base => return { s with pc := UInt16.ofNat (base.val + (s.v.get 0).toNat) }
  | .random x mask =>
    let (rng, draw) := s.rng.split
    return { s.setV x (draw.byte &&& mask) with rng }
  | .draw x y rows => do
    if rows = 0 then throw (.spriteHeight 0)
    let sprite ← s.memory.read s.index.toNat rows.val
    let (display, collision) ← s.display.draw sprite (.ofNat (s.v.get x).toNat) (.ofNat (s.v.get y).toNat)
    return { s.setV flag (if collision then 1 else 0) with display }
  | .skipIfKey x => do return s.skipIf (← s.keyAt x)
  | .skipUnlessKey x => do return s.skipIf (!(← s.keyAt x))
  | .readDelay x => return s.setV x s.delay
  | .awaitKey x =>
    match s.keys.lowest? with
    | none => return { s with pc := s.pc - 2 }
    | some k => return s.setV x (UInt8.ofNat k.val)
  | .setDelay x => return { s with delay := s.v.get x }
  | .setSound x => return { s with sound := s.v.get x }
  | .addIndex x => return { s with index := s.index + (s.v.get x).toUInt16 }
  | .glyph x => do
    let digit := s.v.get x
    if 0xF < digit then throw (.fontDigit x digit)
    return { s with index := UInt16.ofNat (fontStart + digit.toNat * glyphSize) }
  | .digits x => do
    return { s with memory := ← s.memory.write s.index.toNat (decimalDigits (s.v.get x)) }
  | .saveRegisters last => do
    let memory ← s.memory.write s.index.toNat (s.v.toList.take (last.val + 1))
    return { s with memory }.moveIndex (last.val + 1)
  | .loadRegisters last => do
    let bytes ← s.memory.read s.index.toNat (last.val + 1 : Nat)
    return { s with v := replaceV s.v bytes }.moveIndex (last.val + 1)

/-- Execute a word as if it had been fetched at the program counter. -/
def execute (s : State) (word : Int) : Except Fault State :=
  match Instruction.decode word >>= s.skip.perform with
  | .ok t => .ok t
  | .error cause => .error ((Fault.ofCause cause).locate (some word) (some s.pc.toNat))

def bigEndian (bytes : List UInt8) : UInt16 :=
  bytes.foldl (fun w b => w <<< 8 ||| b.toUInt16) 0

/-- The word at the program counter. -/
def fetch (s : State) : Except Fault UInt16 :=
  match s.memory.read s.pc.toNat 2 with
  | .ok bytes => .ok (bigEndian bytes)
  | .error cause => .error ((Fault.ofCause cause).locate none (some s.pc.toNat))

/-- Fetch and execute one word. -/
def step (s : State) : Except Fault (State × UInt16) := do
  let word ← s.fetch
  let t ← s.execute word.toNat
  return (t, word)

/-- The word was a key wait that found no key down and will be executed again. -/
def waits (before after : State) (word : UInt16) : Bool :=
  word &&& 0xF0FF == 0xF00A && after.pc == before.pc

end State

end Chip8
