import Chip8.Text.Pattern
import Chip8.Value

/-!
# Overrides

A setting is overridden by a word `key=value`.  The value is nothing, a flag or a whole number if it is
written like one, and a text otherwise.  Blanks around it do not count, and a character that has a
meaning of its own in longer values stands for itself behind a backslash.
-/

namespace Chip8

structure Override where
  key : String
  value : Value

namespace Override

inductive Error where
  | malformed (word : String)
  deriving DecidableEq, Repr

/-! ### Characters -/

def isKeyChar (c : Char) : Bool :=
  c.isAlphanum || ['_', '-', '.', '$', '/', '@', ':', '+', '~'].contains c

/-- A character that stands for itself in a value. -/
def isValueChar (c : Char) : Bool :=
  c.isAlphanum ||
    ['_', '/', '-', '\\', '+', '.', '$', '%', '*', '@', '?', '|', ':', ' ', '\t'].contains c

/-- Characters that a backslash can stand before. -/
def escapable : List Char :=
  ['\\', '(', ')', '[', ']', '\x7b', '\x7d', ':', '=', ',', ' ', '\t']

/-- The text of a value without its backslashes, if all of its characters have a meaning. -/
def unescape? : List Char → Option (List Char)
  | [] => some []
  | '\\' :: c :: cs =>
    if escapable.contains c then (unescape? cs).map (c :: ·)
    else (unescape? (c :: cs)).map ('\\' :: ·)
  | c :: cs => if isValueChar c then (unescape? cs).map (c :: ·) else none

def isBlank (c : Char) : Bool := c = ' ' || c = '\t'

/-- A value without the blanks around it.  Blanks behind a colon belong to it. -/
def trim (cs : List Char) : List Char :=
  let begun := cs.dropWhile isBlank
  let ended := (begun.reverse.dropWhile isBlank).reverse
  if ended.getLast? = some ':' then begun else ended

/-! ### Whole numbers -/

open Text Pattern in
/-- A sign, and digits in groups of any size; only the number zero begins with a zero. -/
def wholeNumber : Pattern :=
  all
    [sign,
     any [char '0', all [among "123456789", star (all [optional (char '_'), digit])]]]

def natOf (cs : List Char) : Nat :=
  (cs.filter Char.isDigit).foldl (fun n c => 10 * n + (c.toNat - '0'.toNat)) 0

def int? (cs : List Char) : Option Int :=
  if wholeNumber.accepts cs then
    let n : Int := natOf cs
    some (if cs.head? = some '-' then -n else n)
  else none

/-! ### Words -/

/-- The value that is written so. -/
def value? (cs : List Char) : Option Value :=
  match (String.ofList cs).toLower with
  | "null" => some .none
  | "true" => some (.bool true)
  | "false" => some (.bool false)
  | _ =>
    match int? cs with
    | some n => some (.int n)
    | none => (unescape? cs).map fun text => .text (String.ofList text)

/-- Read a word. -/
def ofWord (word : String) : Except Error Override :=
  let cs := word.toList
  let key := cs.takeWhile (· != '=')
  match cs.dropWhile (· != '='), value? (trim ((cs.dropWhile (· != '=')).drop 1)) with
  | _ :: _, some value =>
    if !key.isEmpty && key.all isKeyChar then .ok ⟨String.ofList key, value⟩
    else .error (.malformed word)
  | _, _ => .error (.malformed word)

end Override

end Chip8
