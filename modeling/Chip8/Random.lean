import Chip8.Number.Bounds
import Chip8.Value

/-!
# Random bytes

A counter-based generator: twenty rounds of additions, rotations and exclusive ors encrypt a pair of
words under a key of two words.  A key is split into two new ones by encrypting the counters
`0` and `1`.
-/

namespace Chip8

structure RandomKey where
  high : UInt32
  low : UInt32
  deriving DecidableEq, Repr

namespace RandomKey

def rotateLeft (x n : UInt32) : UInt32 :=
  (x <<< n) ||| (x >>> (32 - n))

/-- One round: mix the words of the block, the second one rotated by `n`. -/
def round (block : UInt32 × UInt32) (n : UInt32) : UInt32 × UInt32 :=
  let a := block.1 + block.2
  (a, rotateLeft block.2 n ^^^ a)

/-- The rotations of four rounds, by the parity of their group. -/
def rotations (group : Nat) : List UInt32 :=
  if group % 2 = 0 then [13, 15, 26, 6] else [17, 29, 16, 24]

/-- The words of the key, the third one their sum in exclusive or with a constant. -/
def schedule (k : RandomKey) (i : Nat) : UInt32 :=
  match i % 3 with
  | 0 => k.high
  | 1 => k.low
  | _ => k.high ^^^ k.low ^^^ 0x1BD11BDA

/-- Four rounds and the key words that follow them. -/
def group (k : RandomKey) (block : UInt32 × UInt32) (i : Nat) : UInt32 × UInt32 :=
  let (a, b) := (rotations i).foldl round block
  (a + k.schedule (i + 1), b + k.schedule (i + 2) + UInt32.ofNat (i + 1))

def encrypt (k : RandomKey) (a b : UInt32) : UInt32 × UInt32 :=
  (List.range 5).foldl k.group (a + k.schedule 0, b + k.schedule 1)

/-- The key of a seed, which counts modulo `2 ^ 32`. -/
def ofSeed (seed : Int) : RandomKey := ⟨0, UInt32.ofInt seed⟩

inductive Error where
  | overflow (e : Number.Overflow)
  | notANumber (seed : Value)

/-- The wording of an error; a host may have its own. -/
def Error.message : Error → String
  | overflow e => e.message
  | notANumber seed => "The seed must be a number, got " ++ seed.render

/-- The key of a seed that is given as a value, which has to be a number of 64 bits. -/
def ofValue (seed : Value) : Except Error RandomKey :=
  match seed.int? with
  | none => .error (.notANumber seed)
  | some n => ((Number.word n).map ofSeed).mapError .overflow

/-- Two new keys: the one to go on with and the one to draw from. -/
def split (k : RandomKey) : RandomKey × RandomKey :=
  let a := k.encrypt 0 0
  let b := k.encrypt 0 1
  (⟨a.1, a.2⟩, ⟨b.1, b.2⟩)

/-- The byte that a key yields. -/
def byte (k : RandomKey) : UInt8 :=
  let (a, b) := k.encrypt 0 0
  (a ^^^ b).toUInt8

end RandomKey

end Chip8
