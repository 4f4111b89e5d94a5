/-!
# The exact value of a double

A finite double is `± mantissa * 2 ^ exponent` with a natural mantissa.  Rounding to an integer and
writing in decimal are stated on these parts and not on the machine's own arithmetic.
-/

namespace Chip8.Number

/-- The number `± mantissa * 2 ^ exponent`. -/
structure Parts where
  negative : Bool
  mantissa : Nat
  exponent : Int
  deriving DecidableEq, Repr

/-- The parts of a finite double; an infinity and a value that is no number have none. -/
def parts? (x : Float) : Option Parts :=
  let bits := x.toBits.toNat
  let negative := decide (1 <<< 63 ≤ bits)
  let biased : Nat := bits >>> 52 % 1 <<< 11
  let fraction : Nat := bits % 1 <<< 52
  if biased = 2047 then none
  else if biased = 0 then some ⟨negative, fraction, -1074⟩
  else some ⟨negative, 1 <<< 52 + fraction, (biased : Int) - 1075⟩

namespace Parts

/-- The magnitude is the fraction `num / den`. -/
def num (p : Parts) : Nat := p.mantissa <<< p.exponent.toNat

def den (p : Parts) : Nat := 1 <<< (-p.exponent).toNat

/-- The integer part: the value with its fraction cut off, toward zero. -/
def truncate (p : Parts) : Int :=
  let n : Int := (p.num / p.den : Nat)
  if p.negative then -n else n

end Parts

/-- The integer part of a finite double, and zero of any other. -/
def truncate (x : Float) : Int :=
  ((parts? x).map Parts.truncate).getD 0

/-- The integer part of a double as far as a word of 32 bits holds it, and the least word of any other
double. -/
def truncate32 (x : Float) : Int :=
  match (parts? x).map Parts.truncate with
  | some n => if -2147483648 ≤ n ∧ n ≤ 2147483647 then n else -2147483648
  | none => -2147483648

end Chip8.Number
