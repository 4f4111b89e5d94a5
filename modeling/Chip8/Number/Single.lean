/-!
# Single precision inside double precision

Every single-precision number is a double.  `widen` reads the fields of the one and writes them as
fields of the other: the exponent is rebased by `1023 - 127` and the fraction gets 29 zero bits.
-/

namespace Chip8.Number

/-- The double of the same value. -/
def widen (x : Float32) : Float :=
  let bits := x.toBits.toNat
  let sign := bits >>> 31 <<< 63
  let biased := bits >>> 23 % 1 <<< 8
  let fraction := bits % 1 <<< 23
  if biased = 0 then
    -- a subnormal is a multiple of the least one, which is a normal double
    let least := Float.ofBits 0x36a0000000000000
    let magnitude := Float.ofNat fraction * least
    if sign = 0 then magnitude else -magnitude
  else
    let exponent := if biased = 255 then 2047 else biased + 896
    Float.ofBits (UInt64.ofNat (sign + exponent <<< 52 + fraction <<< 29))

end Chip8.Number
