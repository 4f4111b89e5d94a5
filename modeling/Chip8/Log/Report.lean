import Chip8.Log
import Chip8.State.Registers

/-!
# Reports of a run

What is logged when a run starts and ends, every so many frames, and when a fault stops the machine.
Settings and statistics are named values in a fixed order.
-/

namespace Chip8

namespace Report

def info (message : String) : Entry := ⟨"INFO", message⟩

def error (message : String) : Entry := ⟨"ERROR", message⟩

/-- A rule of sixty equals signs. -/
def rule : String := String.ofList (List.replicate 60 '=')

def runStart (config : Fields) : List Entry :=
  [info rule, info "Starting machine with configuration:"] ++
    config.map (fun (k, v) => info ("  " ++ k ++ ": " ++ v.render)) ++ [info rule]

/-- `elapsed` is the time since the logger was made. -/
def runEnd (elapsed : Float) (stats : Fields) : List Entry :=
  [info rule, info ("Machine stopped after " ++ Number.fixed 1 elapsed ++ "s")] ++
    stats.map (fun (k, v) => info ("  " ++ k ++ ": " ++ v.renderStatistic)) ++ [info rule]

def statsLine (frame : Int) (elapsed : Float) (stats : Fields) : Entry :=
  ⟨"DEBUG", "Frame " ++ Numeral.justify 6 (Numeral.decimal frame) ++ " (" ++
    Numeral.justify 5 (Number.fixed 2 elapsed) ++ "s since last) | " ++
    " | ".intercalate (stats.map fun (k, v) => k ++ "=" ++ v.renderStatistic)⟩

/-- The fault, the registers it left, and the keys that were down. -/
def fault (f : Fault) (state : Option State) : List Entry :=
  error ("Machine fault: " ++ f.message) :: match state with
    | none => []
    | some s => error ("  " ++ s.registerLine) ::
      if s.keys.any then
        [error ("  keys held: " ++ " ".intercalate (s.keys.held.map fun i => Numeral.hex 0 i.val))]
      else []

end Report

namespace Logger

/-- Statistics are due in every `interval`-th frame, and never for an interval that is not
positive. -/
def statsDue (frame interval : Int) : Bool := 0 < interval && frame % interval == 0

/-- The statistics of a frame, if they are due.  The time is noted whether or not the line is
printed. -/
def frameStats (l : Logger) (now : Float) (frame : Int) (stats : Fields) (interval : Value) :
    Except Misuse (Logger × List Entry) :=
  match interval.int? with
  | none => .error (.order .atMost interval.kind .whole)
  | some n =>
    if statsDue frame n then
      .ok ({ l with lastStats := now }, [Report.statsLine frame (now - l.lastStats) stats])
    else .ok (l, [])

end Logger

end Chip8
