import Chip8.Text.Pattern

/-!
# Plain texts

A text stands plain in a document if it is read back as a text: it has to begin and to go on as one,
and nothing else may be written like it.  Numbers, flags and moments are written in several ways that
are quoted here even where a reader would still take them for texts.
-/

namespace Chip8.Yaml

open Text Pattern

/-! ### What is not read as a text -/

/-- Words for flags and for nothing, and two words with a meaning of their own. -/
def readWords : List String :=
  ["yes", "Yes", "YES", "no", "No", "NO", "true", "True", "TRUE", "false", "False", "FALSE",
   "on", "On", "ON", "off", "Off", "OFF", "~", "null", "Null", "NULL", "", "=", "<<"]

def digitOrMark : Pattern := among "0123456789_"

/-- Digits in groups that marks separate, the first of them from `first`. -/
def groups (first : String) : Pattern := all [among first, star digitOrMark]

/-- Sixtieths after a colon. -/
def sixtieths : Pattern := plus (all [char ':', optional (among "012345"), digit])

/-- Whole numbers to the bases two, eight, ten, sixteen and sixty. -/
def wholes : Pattern :=
  sign.andThen <| any
    [all [word "0b", plus (among "01_")],
     all [char '0', plus (among "01234567_")],
     char '0',
     groups "123456789",
     all [word "0x", plus (among "0123456789abcdefABCDEF_")],
     all [groups "123456789", sixtieths]]

def exponent : Pattern := optional (all [among "eE", among "+-", plus digit])

def reals : Pattern :=
  any
    [all [sign, groups "0123456789", char '.', star digitOrMark, exponent],
     all [char '.', groups "0123456789", exponent],
     all [sign, groups "0123456789", sixtieths, char '.', star digitOrMark],
     all [sign, words [".inf", ".Inf", ".INF"]],
     words [".nan", ".NaN", ".NAN"]]

def twoDigits : Pattern := all [digit, digit]

def oneOrTwoDigits : Pattern := all [digit, optional digit]

def year : Pattern := all [digit, digit, digit, digit]

/-- Dates, with a time of day and a zone or without them. -/
def moments : Pattern :=
  let zone := any [char 'Z', all [among "+-", oneOrTwoDigits, optional (all [char ':', twoDigits])]]
  any
    [all [year, char '-', twoDigits, char '-', twoDigits],
     all [year, char '-', oneOrTwoDigits, char '-', oneOrTwoDigits,
      any [among "Tt", plus (among " \t")], oneOrTwoDigits, char ':', twoDigits, char ':', twoDigits,
      optional (all [char '.', star digit]), optional (all [star (among " \t"), zone])]]

/-- A plain text is read as something else. -/
def readsOtherwise (s : List Char) : Bool :=
  (any [words readWords, wholes, reals, moments]).accepts s

/-! ### What is always quoted -/

def flagWords : List String :=
  ["y", "Y", "yes", "Yes", "YES", "n", "N", "no", "No", "NO", "true", "True", "TRUE", "false", "False",
   "FALSE", "on", "On", "ON", "off", "Off", "OFF"]

def blanks : Pattern := star (among " \t\n\x0b\x0c\r")

/-- Digits with a mark between two of them at most. -/
def digits : Pattern := all [digit, star (all [optional (char '_'), digit])]

/-- Numbers as they are usually entered. -/
def entered : Pattern :=
  let power := optional (all [among "eE", sign, digits])
  all
    [blanks, sign,
     any
      [all [digits, optional (all [char '.', optional digits]), power],
       all [char '.', digits, power],
       anyCase "infinity", anyCase "inf", anyCase "nan"],
     blanks]

def alwaysQuoted (s : List Char) : Bool := (any [words flagWords, entered]).accepts s

/-! ### How a text begins and goes on -/

/-- Characters that give a text another meaning where it begins with one of them. -/
def indicators : List Char :=
  ['#', ',', '[', ']', '\x7b', '\x7d', '&', '*', '!', '|', '>', '\'', '"', '%', '@', '\x60']

/-- Characters that do so where a blank or nothing follows. -/
def leaders : List Char := ['?', ':', '-']

def isBlank (c : Char) : Bool := [' ', '\t', '\r', '\n'].contains c

/-- The text begins and goes on like a text in the block style. -/
def wellFormed (s : List Char) : Bool :=
  match s with
  | [] => true
  | c :: cs =>
    !(['-', '-', '-'].isPrefixOf s || ['.', '.', '.'].isPrefixOf s) &&
      !indicators.contains c && !(leaders.contains c && cs.head?.all isBlank) &&
      c != ' ' && s.getLast? != some ' ' && s.getLast? != some ':' &&
      !(s.zip cs).any fun (a, b) => (a = ':' && isBlank b) || (isBlank a && b = '#')

/-- A text that may stand plain, if no character of it needs an escape. -/
def isPlain (s : List Char) : Bool := wellFormed s && !readsOtherwise s && !alwaysQuoted s

end Chip8.Yaml
