import Chip8.Number.Double
import Chip8.Number.Numeral

/-!
# The shortest decimal that reads back

A positive double stands for the interval of reals that round to it; the ends belong to the interval
when the mantissa is even.  For one digit, two digits, and so on, the two neighbours of the value on
the decimal grid of that many digits are tested in exact arithmetic.  The first grid with a hit
wins, and of two hits the nearer one, the even one at a tie.

The text is positional for magnitudes from `1e-4` to below `1e16` and has at least one digit on each
side of the point; otherwise one digit stands before the point and the exponent has a sign and at
least two digits.
-/

namespace Chip8.Number

/-- The decimal `digits * 10 ^ exponent`. -/
structure Scientific where
  digits : Nat
  exponent : Int
  deriving DecidableEq, Repr

namespace Parts

/-- The reals that round to the magnitude lie between `low / scale` and `high / scale`; the
magnitude itself is `mid / scale`. -/
structure Interval where
  low : Nat
  mid : Nat
  high : Nat
  scale : Nat
  closed : Bool

/-- Neighbouring doubles are one unit apart, half a unit below a power of two. -/
def interval (p : Parts) : Interval :=
  let up := 1 <<< (p.exponent - 2).toNat
  let below := if p.mantissa = 1 <<< 52 ∧ -1074 < p.exponent then 1 else 2
  { low := (4 * p.mantissa - below) * up
    mid := 4 * p.mantissa * up
    high := (4 * p.mantissa + 2) * up
    scale := 1 <<< (2 - p.exponent).toNat
    closed := p.mantissa % 2 = 0 }

/-- The number of digits before the point, zero or negative for a fraction with leading zeros. -/
def magnitude (num den : Nat) : Int :=
  let a : Int := (Numeral.decimalDigits den).length
  let b : Int := (Numeral.decimalDigits num).length
  if den * Nat.pow 10 (b - a).toNat ≤ num * Nat.pow 10 (a - b).toNat then b - a + 1 else b - a

/-- The shortest decimal on grids of `k` or more digits; `17` digits always suffice. -/
def search (i : Interval) (point : Int) : (k : Nat) → (more : Nat) → Scientific
  | k, 0 =>
    let unit := i.scale * Nat.pow 10 (point - k).toNat
    ⟨i.mid * Nat.pow 10 (k - point).toNat / unit, point - k⟩
  | k, more + 1 =>
    -- in units of the grid the value is `mid * up / (scale * down)`
    let up := Nat.pow 10 (k - point).toNat
    let unit := i.scale * Nat.pow 10 (point - k).toNat
    let n := i.mid * up / unit
    let rest := i.mid * up % unit
    let lower := decide (i.low * up < n * unit) || (i.closed && decide (i.low * up = n * unit))
    let upper := decide ((n + 1) * unit < i.high * up) ||
      (i.closed && decide ((n + 1) * unit = i.high * up))
    match lower, upper with
    | true, false => ⟨n, point - k⟩
    | false, true => ⟨n + 1, point - k⟩
    | true, true =>
      if 2 * rest < unit then ⟨n, point - k⟩
      else if unit < 2 * rest then ⟨n + 1, point - k⟩
      else ⟨n + n % 2, point - k⟩
    | false, false => search i point (k + 1) more

def shortest (p : Parts) : Scientific :=
  search p.interval (magnitude p.interval.mid p.interval.scale) 1 17

end Parts

/-- The digits without the zeros at their end, and the place of the point among them. -/
def Scientific.normal (s : Scientific) : List Char × Int :=
  let all := Numeral.decimalDigits s.digits
  ((all.reverse.dropWhile (· == '0')).reverse, all.length + s.exponent)

/-- A positional or exponent text for the digits `0.d₁d₂… * 10 ^ point`. -/
def layout (digits : List Char) (point : Int) : List Char :=
  if -3 ≤ point ∧ point ≤ 16 then
    if point ≤ 0 then '0' :: '.' :: (List.replicate (-point).toNat '0' ++ digits)
    else
      let k := point.toNat
      let whole := digits.take k ++ List.replicate (k - digits.length) '0'
      let fraction := digits.drop k
      whole ++ '.' :: (if fraction.isEmpty then ['0'] else fraction)
  else
    let e := point - 1
    let tail := digits.drop 1
    digits.take 1 ++ (if tail.isEmpty then [] else '.' :: tail) ++
      'e' :: (if e < 0 then '-' else '+') :: (Numeral.decimalDigits e.natAbs).leftpad 2 '0'

/-- A double in the fewest digits that read back as it. -/
def shortest (x : Float) : String :=
  match parts? x with
  | some p =>
    let sign := if p.negative then ['-'] else []
    if p.mantissa = 0 then String.ofList (sign ++ ['0', '.', '0'])
    else
      let (digits, point) := p.shortest.normal
      String.ofList (sign ++ layout digits point)
  | none => if x.isNaN then "nan" else if x < 0 then "-inf" else "inf"

end Chip8.Number
