/-!
# Patterns of characters

Regular patterns.  A pattern is matched character by character: its derivative by a character is the
pattern of what may follow that character, and a text is accepted if what is left at its end accepts
the empty text.  Derivatives are simplified, so they stay small.
-/

namespace Chip8.Text

inductive Pattern where
  | never
  | empty
  | oneOf (chars : List Char)
  | seq (p q : Pattern)
  | alt (p q : Pattern)
  | star (p : Pattern)
  deriving DecidableEq, Repr

namespace Pattern

/-- The pattern accepts the empty text. -/
def nullable : Pattern → Bool
  | never => false
  | empty => true
  | oneOf _ => false
  | seq p q => p.nullable && q.nullable
  | alt p q => p.nullable || q.nullable
  | star _ => true

/-- One pattern after another, simplified. -/
def andThen : Pattern → Pattern → Pattern
  | never, _ => never
  | empty, q => q
  | p, q => seq p q

/-- One pattern or another, simplified. -/
def orElse (p q : Pattern) : Pattern :=
  if p = never then q else if q = never then p else if p = q then p else alt p q

/-- The pattern of what may follow a character. -/
def derivative (c : Char) : Pattern → Pattern
  | never => never
  | empty => never
  | oneOf chars => if chars.contains c then empty else never
  | seq p q =>
    if p.nullable then ((p.derivative c).andThen q).orElse (q.derivative c)
    else (p.derivative c).andThen q
  | alt p q => (p.derivative c).orElse (q.derivative c)
  | star p => (p.derivative c).andThen (star p)

def accepts : Pattern → List Char → Bool
  | p, [] => p.nullable
  | p, c :: cs => (p.derivative c).accepts cs

/-! ### Composed patterns -/

def all (ps : List Pattern) : Pattern := ps.foldr andThen empty

def any (ps : List Pattern) : Pattern := ps.foldr orElse never

def optional (p : Pattern) : Pattern := alt empty p

def plus (p : Pattern) : Pattern := seq p (star p)

def char (c : Char) : Pattern := oneOf [c]

def word (s : String) : Pattern := all (s.toList.map char)

def words (l : List String) : Pattern := any (l.map word)

/-- A word in small letters, or in any mixture of small letters and capitals. -/
def anyCase (s : String) : Pattern := all (s.toList.map fun c => oneOf [c, c.toUpper])

/-- Characters of a text as a choice. -/
def among (s : String) : Pattern := oneOf s.toList

def digit : Pattern := among "0123456789"

def sign : Pattern := optional (among "+-")

end Pattern

end Chip8.Text
