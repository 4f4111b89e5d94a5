import Chip8.Number.Double
import Chip8.Number.Numeral

/-!
# Decimal text with a fixed number of places

The exact value is rounded once, to the nearest multiple of `10 ^ -places`; a half goes to the even
neighbour.  A negative sign is kept even where the digits round to zero.
-/

namespace Chip8.Number

/-- `num / den` rounded to the nearest integer, a half to the even one. -/
def roundDiv (num den : Nat) : Nat :=
  let q := num / den
  let r := num % den
  if 2 * r < den then q else if den < 2 * r then q + 1 else q + q % 2

/-- The digits of `n / 10 ^ places`, with at least one before the point. -/
def pointed (places n : Nat) : List Char :=
  let digits := (Numeral.decimalDigits n).leftpad (places + 1) '0'
  digits.take (digits.length - places) ++ '.' :: digits.drop (digits.length - places)

/-- A double with `places` digits behind the point. -/
def fixed (places : Nat) (x : Float) : String :=
  match parts? x with
  | some p =>
    let n := roundDiv (p.num * Nat.pow 10 places) p.den
    String.ofList ((if p.negative then ['-'] else []) ++ pointed places n)
  | none => if x.isNaN then "nan" else if x < 0 then "-inf" else "inf"

end Chip8.Number
