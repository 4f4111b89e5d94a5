import Chip8.Value

/-!
# Log lines

A logger has a threshold and prints the entries whose level reaches it.  Levels are named in any
case; a name that is none counts as `INFO`, on either side of the comparison.  A line has the
seconds since the logger was made, the level as it was given, the logger's name, and the message.
-/

namespace Chip8

inductive Level where
  | debug
  | info
  | warning
  | error
  | critical
  deriving DecidableEq, Repr

namespace Level

def rank : Level → Nat
  | debug => 0
  | info => 1
  | warning => 2
  | error => 3
  | critical => 4

/-- The capital of a letter, for the letters that have a capital from `A` to `Z`. -/
def capital (c : Char) : Char :=
  if c = 'ı' then 'I' else if c = 'ſ' then 'S' else c.toUpper

/-- A name in capitals. -/
def capitals (name : String) : String := String.ofList (name.toList.map capital)

def ofName? (name : String) : Option Level :=
  match capitals name with
  | "DEBUG" => some debug
  | "INFO" => some info
  | "WARNING" => some warning
  | "ERROR" => some error
  | "CRITICAL" => some critical
  | _ => none

/-- The rank of a level's name. -/
def rankOf (name : String) : Nat := ((ofName? name).getD info).rank

/-- What ends a colour on a terminal. -/
def plain : String := "\x1b[0m"

/-- The terminal colour of a level. -/
def color : Level → String
  | debug => "\x1b[36m"
  | info => "\x1b[32m"
  | warning => "\x1b[33m"
  | error => "\x1b[31m"
  | critical => "\x1b[35m"

/-- The terminal colour of a level's name.  The end of a colour has a name too, which is no level. -/
def colorOf (name : String) : String :=
  if capitals name = "RESET" then plain else ((ofName? name).map color).getD ""

end Level

structure Entry where
  level : String
  message : String
  deriving DecidableEq, Repr

/-- A printed text, with the level of its entry. -/
structure Line where
  level : String
  text : String
  deriving DecidableEq, Repr

structure Logger where
  name : String
  threshold : String := "INFO"
  colored : Bool := false
  timestamps : Bool := true
  started : Float := 0
  /-- When frame statistics were last due. -/
  lastStats : Float := 0

namespace Logger

/-- A logger made at the time `now`; it uses colours only on a terminal. -/
def create (name threshold : String) (colors timestamps terminal : Bool) (now : Float) : Logger where
  name
  threshold
  colored := colors && terminal
  timestamps
  started := now
  lastStats := now

/-- The names of loggers that are given none. -/
def defaultName : String := "chix8"

def machineName : String := "Machine"

/-- The threshold that a setting names.  Only a text has capitals. -/
def thresholdOf : Value → Except Misuse String
  | .text s => .ok s
  | v => .error (.member v.kind "upper")

def reaches (l : Logger) (level : String) : Bool :=
  Level.rankOf l.threshold ≤ Level.rankOf level

def levelText (l : Logger) (level : String) : String :=
  let text := "[" ++ Numeral.justify 8 level ++ "]"
  if l.colored then Level.colorOf level ++ text ++ Level.plain else text

def timeText (l : Logger) (now : Float) : String :=
  if l.timestamps then
    "[" ++ Numeral.justify 8 (Number.fixed 2 (now - l.started)) ++ "s]"
  else ""

/-- The text printed for an entry. -/
def line (l : Logger) (now : Float) (e : Entry) : String :=
  l.timeText now ++ l.levelText e.level ++ "[" ++ l.name ++ "] " ++ e.message

/-- The lines printed for a sequence of entries, with their levels. -/
def leveledLines (l : Logger) (now : Float) (entries : List Entry) : List Line :=
  (entries.filter fun e => l.reaches e.level).map fun e => ⟨e.level, l.line now e⟩

/-- The texts printed for a sequence of entries. -/
def lines (l : Logger) (now : Float) (entries : List Entry) : List String :=
  (l.leveledLines now entries).map Line.text

end Logger

end Chip8
