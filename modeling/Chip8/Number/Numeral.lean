/-!
# Written integers

Hexadecimal numerals in capitals, decimal numerals in groups of three, and filling on the left to a
least width.  A sign stands before the filling and counts toward the width.
-/

namespace Chip8.Numeral

def hexDigits (n : Nat) : List Char :=
  (Nat.toDigits 16 n).map Char.toUpper

def decimalDigits (n : Nat) : List Char :=
  Nat.toDigits 10 n

def sign (n : Int) : List Char :=
  if n < 0 then ['-'] else []

/-- `n` in hexadecimal, filled with zeros up to `width` characters. -/
def hex (width : Nat) (n : Int) : String :=
  String.ofList (sign n ++ (hexDigits n.natAbs).leftpad (width - (sign n).length) '0')

def decimal (n : Int) : String :=
  String.ofList (sign n ++ decimalDigits n.natAbs)

/-- `s` with spaces before it up to `width` characters. -/
def justify (width : Nat) (s : String) : String :=
  String.ofList (s.toList.leftpad width ' ')

/-! ### Groups of three -/

/-- A comma after every third digit of a numeral that is given from its last digit on. -/
def separate : List Char → List Char
  | a :: b :: c :: d :: r => a :: b :: c :: ',' :: separate (d :: r)
  | r => r

/-- `n` in decimal with a comma between groups of three digits. -/
def grouped (n : Int) : String :=
  String.ofList (sign n ++ (separate (decimalDigits n.natAbs).reverse).reverse)

/-! ### Small facts -/

theorem sign_of_nonneg {n : Int} (h : 0 ≤ n) : sign n = [] := by
  simp [sign, Int.not_lt.mpr h]

theorem hex_natCast (width n : Nat) :
    hex width n = String.ofList ((hexDigits n).leftpad width '0') := by
  rw [hex, sign_of_nonneg (Int.natCast_nonneg n)]
  simp

end Chip8.Numeral
