import Chip8.Value
import Chip8.Yaml.Plain

/-!
# Scalars

A value as it stands behind its key.  A text stands plain where it can, else between single quotes, and
between double quotes if it has characters that need an escape.

A text is folded where it runs over eighty columns: a single space between two words becomes a line
break and an indentation.  Between double quotes a line is broken behind a backslash instead, and the
space begins the next line behind another one.
-/

namespace Chip8.Yaml

/-- A line is folded at the first chance beyond this column. -/
def lineWidth : Nat := 80

def lineBreak (indent : Nat) : List Char := '\n' :: List.replicate indent ' '

/-! ### Plain and between single quotes -/

/-- A character between single quotes: the quote is doubled. -/
def doubled (c : Char) : List Char := if c = '\'' then ['\'', '\''] else [c]

/-- Fold a text that goes on in `column` behind the character `before`. -/
def fold (indent : Nat) (write : Char → List Char) :
    (column : Nat) → (before : Char) → List Char → List Char
  | _, _, [] => []
  | column, before, c :: cs =>
    if c = ' ' && before != ' ' && cs.head?.any (· != ' ') && lineWidth < column then
      lineBreak indent ++ fold indent write indent ' ' cs
    else write c ++ fold indent write (column + (write c).length) c cs

/-! ### Between double quotes -/

/-- Letters that stand for a character behind a backslash. -/
def escapeLetters : List (Char × Char) :=
  [('\x00', '0'), ('\x07', 'a'), ('\x08', 'b'), ('\t', 't'), ('\n', 'n'), ('\x0b', 'v'), ('\x0c', 'f'),
   ('\r', 'r'), ('\x1b', 'e'), ('"', '"'), ('\\', '\\'), ('\u0085', 'N'), ('\u2028', 'L'),
   ('\u2029', 'P')]

/-- A character that stands for itself in any style. -/
def isPrintable (c : Char) : Bool :=
  (' ' ≤ c && c ≤ '~') ||
    ('\u00a0' ≤ c && !([0x2028, 0x2029, 0xfeff, 0xfffe, 0xffff].contains c.toNat))

/-- The escape of a character that does not stand for itself between double quotes. -/
def escape? (c : Char) : Option (List Char) :=
  match escapeLetters.lookup c with
  | some letter => some ['\\', letter]
  | none =>
    if isPrintable c then none
    else if c.toNat < 0x100 then some ('\\' :: 'x' :: (Numeral.hex 2 c.toNat).toList)
    else some ('\\' :: 'u' :: (Numeral.hex 4 c.toNat).toList)

/-- A space that begins a line stands behind a backslash. -/
def lineStart (cs : List Char) : List Char := if cs.head? = some ' ' then ['\\'] else []

/-- Fold a text with escapes.  A line may be broken before a space, and on either side of an escape,
but not before or behind the first and the last character. -/
def foldEscaped (indent : Nat) :
    (column : Nat) → (first afterEscape : Bool) → List Char → List Char
  | _, _, _, [] => []
  | column, first, afterEscape, c :: cs =>
    let inner := !first && !cs.isEmpty
    match escape? c with
    | some e =>
      let column := column + e.length
      if inner && lineWidth < column - 1 then
        let start := lineStart cs
        e ++ '\\' :: lineBreak indent ++ start ++
          foldEscaped indent (indent + start.length) false true cs
      else e ++ foldEscaped indent column false true cs
    | none =>
      if inner && (c = ' ' || afterEscape) && lineWidth < column then
        let start := lineStart (c :: cs)
        '\\' :: lineBreak indent ++ start ++
          c :: foldEscaped indent (indent + start.length + 1) false false cs
      else c :: foldEscaped indent (column + 1) false false cs

/-! ### Values -/

/-- A text behind a space in `column`; further lines are indented. -/
def text (indent column : Nat) (s : List Char) : List Char :=
  if !s.all isPrintable then '"' :: foldEscaped indent (column + 1) true false s ++ ['"']
  else if isPlain s then fold indent (fun c => [c]) column ' ' s
  else '\'' :: fold indent doubled (column + 1) ' ' s ++ ['\'']

def scalar (indent column : Nat) : Value → List Char
  | .none => "null".toList
  | .bool true => "true".toList
  | .bool false => "false".toList
  | .int n => (Numeral.decimal n).toList
  | .float x => (Number.shortest x).toList
  | .text s => text indent column s.toList

end Chip8.Yaml
