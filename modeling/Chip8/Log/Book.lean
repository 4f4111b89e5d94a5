import Chip8.Log.Report

/-!
# A log that is kept

A logger is told one thing after the other, and time passes in between.  It prints lines for what it is told,
and it notes when frame statistics were last due.
-/

namespace Chip8

/-- What a logger can be told. -/
inductive Notice where
  | entry (e : Entry)
  | runStart (config : Fields)
  | frameStats (frame : Int) (stats : Fields) (interval : Value)
  | fault (f : Fault) (state : Option State)
  | runEnd (stats : Fields)

/-- The entries for a notice, and the logger after it. -/
def Logger.entries (l : Logger) (now : Float) : Notice → Except Misuse (Logger × List Entry)
  | .entry e => .ok (l, [e])
  | .runStart config => .ok (l, Report.runStart config)
  | .frameStats frame stats interval => l.frameStats now frame stats interval
  | .fault f state => .ok (l, Report.fault f state)
  | .runEnd stats => .ok (l, Report.runEnd (now - l.started) stats)

/-- A logger and the time in seconds. -/
structure Logbook where
  logger : Logger
  clock : Float := 0

namespace Logbook

inductive Step where
  | pass (seconds : Float)
  | tell (n : Notice)

/-- The lines that are printed, or why a notice is refused. -/
abbrev Answer := Except Misuse (List Line)

/-- A refusal prints nothing. -/
def Answer.lines : Answer → List Line
  | .ok lines => lines
  | .error _ => []

/-- A notice that is refused leaves the logger as it was. -/
def step (b : Logbook) : Step → Logbook × Answer
  | .pass seconds => ({ b with clock := b.clock + seconds }, .ok [])
  | .tell n =>
    match b.logger.entries b.clock n with
    | .ok (logger, entries) => ({ b with logger }, .ok (logger.leveledLines b.clock entries))
    | .error e => (b, .error e)

/-- The answers to steps that are taken one after the other, and the log after them. -/
def keep (b : Logbook) : List Step → Logbook × List Answer
  | [] => (b, [])
  | s :: steps =>
    let (b, answer) := b.step s
    let (b, answers) := b.keep steps
    (b, answer :: answers)

/-- All the lines that are printed in the course of steps. -/
def printed (b : Logbook) (steps : List Step) : List Line :=
  (b.keep steps).2.flatMap Answer.lines

end Logbook

end Chip8
