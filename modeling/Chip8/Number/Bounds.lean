import Chip8.Number.Numeral

/-!
# Bounded numbers

Whole numbers of any size are narrowed to bytes, to words of 64 bits with a sign, and to doubles.  A
number that is too large is refused; a byte has to fit into a word before it has to fit into a byte.
Keys, registers and hexadecimal digits are numbered by `Fin 16`.
-/

namespace Chip8.Number

/-! ### Nibbles -/

-- found before any other instance, so that numerals of `Fin 16` do not depend on the imports
instance (priority := 1100) neZeroSixteen : @NeZero Nat Zero.ofOfNat0 16 := ⟨by decide⟩

/-- The bound that an update of sixteen keys or registers needs. -/
theorem lt_sixteen (i : Fin 16) : i.val < 16 := i.isLt

/-! ### Bytes, words and doubles -/

theorem toNat_and_one (b : UInt8) : (b &&& 1).toNat = b.toNat % 2 :=
  (UInt8.toNat_and b 1).trans (Nat.and_one_is_mod _)

inductive Overflow where
  /-- Not a word of 64 bits. -/
  | word (value : Int)
  | byte (value : Int)
  /-- The nearest double would be infinite. -/
  | double
  deriving DecidableEq, Repr

/-- The wording of an overflow; a host may have its own for words and bytes. -/
def Overflow.message : Overflow → String
  | word value => Numeral.decimal value ++ " does not fit into 64 bits"
  | byte value => Numeral.decimal value ++ " is not a byte"
  | double => "int too large to convert to float"

def word (value : Int) : Except Overflow Int :=
  if -9223372036854775808 ≤ value ∧ value ≤ 9223372036854775807 then .ok value
  else .error (.word value)

def byte (value : Int) : Except Overflow UInt8 := do
  let n ← word value
  if 0 ≤ n ∧ n < 256 then return UInt8.ofNat n.toNat else throw (.byte n)

/-- The bytes of a list, or what is wrong with the first number that is none. -/
def bytes (values : List Int) : Except Overflow (List UInt8) := values.mapM byte

/-- Halfway between the largest double and `2 ^ 1024`. -/
abbrev doubleLimit : Nat := 1 <<< 1024 - 1 <<< 970

/-- The nearest double of a natural number.  From the limit on there is none. -/
def double (n : Nat) : Except Overflow Float :=
  if n < doubleLimit then .ok (Float.ofNat n) else .error .double

theorem word_eq_ok_iff {value n : Int} :
    word value = .ok n ↔ n = value ∧ -9223372036854775808 ≤ n ∧ n ≤ 9223372036854775807 := by
  unfold word
  split
  · rw [Except.ok.injEq]
    omega
  · simp only [reduceCtorEq, false_iff]
    omega

theorem byte_natCast (n : Nat) (h : n < 256) : byte n = .ok (UInt8.ofNat n) := by
  have hw : word n = .ok (n : Int) := word_eq_ok_iff.mpr (by omega)
  have hb : (0 : Int) ≤ n ∧ (n : Int) < 256 := by omega
  simp [byte, hw, bind, Except.bind, pure, Except.pure, hb]

end Chip8.Number
