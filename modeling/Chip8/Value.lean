import Chip8.Number.Fixed
import Chip8.Number.Shortest

/-!
# Values

What a setting or a statistic can be: nothing, a flag, a whole number, a real number or a text.  A
setting is given as a word, so it may be of a kind that its use does not allow.  Such a misuse is
found where the value is used, and is stated by the kinds of the values alone.
-/

namespace Chip8

inductive Kind where
  | none
  | flag
  | whole
  | real
  | text
  deriving DecidableEq, Repr

def Kind.name : Kind → String
  | none => "NoneType"
  | flag => "bool"
  | whole => "int"
  | real => "float"
  | text => "str"

/-- How two numbers are compared. -/
inductive Relation where
  | less
  | atMost
  | greater
  deriving DecidableEq, Repr

namespace Relation

def sign : Relation → String
  | less => "<"
  | atMost => "<="
  | greater => ">"

def holds : Relation → Int → Int → Bool
  | less, a, b => a < b
  | atMost, a, b => a ≤ b
  | greater, a, b => b < a

end Relation

/-- The use of a value of a kind that the use does not allow. -/
inductive Misuse where
  | order (relation : Relation) (left right : Kind)
  | operands (operator : String) (left right : Kind)
  | member (owner : Kind) (name : String)
  /-- The size of a window is not a pair of numbers. -/
  | size
  deriving DecidableEq, Repr

def Misuse.message : Misuse → String
  | order relation left right =>
    "'" ++ relation.sign ++ "' not supported between instances of '" ++ left.name ++ "' and '" ++
      right.name ++ "'"
  | operands operator left right =>
    "unsupported operand type(s) for " ++ operator ++ ": '" ++ left.name ++ "' and '" ++
      right.name ++ "'"
  | member owner name => "'" ++ owner.name ++ "' object has no attribute '" ++ name ++ "'"
  | size => "size must be two numbers"

/-- A setting or a statistic. -/
inductive Value where
  | none
  | bool (b : Bool)
  | int (n : Int)
  | float (x : Float)
  | text (s : String)

namespace Value

def kind : Value → Kind
  | none => .none
  | bool _ => .flag
  | int _ => .whole
  | float _ => .real
  | text _ => .text

def render : Value → String
  | none => "None"
  | bool true => "True"
  | bool false => "False"
  | int n => Numeral.decimal n
  | float x => Number.shortest x
  | text s => s

/-- A statistic has one place behind the point, if it is a float. -/
def renderStatistic : Value → String
  | float x => Number.fixed 1 x
  | v => v.render

/-- Nothing, zero and the empty text do not count as true. -/
def truthy : Value → Bool
  | none => false
  | bool b => b
  | int n => n != 0
  | float x => x != 0
  | text s => s != ""

/-- The whole number that a value counts as; a flag counts as one or zero. -/
def int? : Value → Option Int
  | bool b => some b.toInt
  | int n => some n
  | _ => Option.none

/-- Compare two values as whole numbers. -/
def compare (relation : Relation) (v w : Value) : Except Misuse Bool :=
  match v.int?, w.int? with
  | some a, some b => .ok (relation.holds a b)
  | _, _ => .error (.order relation v.kind w.kind)

/-- `n` times a value: a number is multiplied and a text is repeated. -/
def times (n : Nat) : Value → Except Misuse Value
  | bool b => .ok (int (n * b.toInt))
  | int k => .ok (int (n * k))
  | float x => .ok (float (Float.ofNat n * x))
  | text s => .ok (text (String.join (List.replicate n s)))
  | none => .error (.operands "*" .whole .none)

end Value

/-- Named values in the order in which they are reported. -/
abbrev Fields := List (String × Value)

end Chip8
