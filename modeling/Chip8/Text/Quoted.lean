import Chip8.Number.Numeral

/-!
# Quoted text

A text between single quotes, or between double quotes if only single ones are in it.  The quote, the
backslash and the control characters are escaped.
-/

namespace Chip8.Text

/-- The quote that a text is put between. -/
def quoteFor (cs : List Char) : Char :=
  if cs.contains '\'' && !cs.contains '"' then '"' else '\''

def hexLower (width n : Nat) : List Char :=
  (Nat.toDigits 16 n).leftpad width '0'

def escape (quote c : Char) : List Char :=
  if c = '\\' || c = quote then ['\\', c]
  else if c = '\t' then ['\\', 't']
  else if c = '\n' then ['\\', 'n']
  else if c = '\r' then ['\\', 'r']
  else if c < ' ' || c = '\x7f' then '\\' :: 'x' :: hexLower 2 c.toNat
  else [c]

def quoted (s : String) : String :=
  let cs := s.toList
  let quote := quoteFor cs
  String.ofList (quote :: cs.flatMap (escape quote) ++ [quote])

end Chip8.Text
