import Chip8.Log.Book

/-!
# Raising the threshold of a log

Two loggers that differ in their threshold alone are told the same things at the same times.  The time of the
last statistics is noted before the threshold is looked at, so it stays the same on both sides, and with it
all that is written in a line.  What differs is which lines are printed.

* `Logbook.raised b t`        the same log with the threshold `t`;
* `leveledLines_raised`       a call: the lines that reach the new threshold are left;
* `entries_raised`, `step_raised`, `keep_raised`   a notice, a step, and steps one after the other;
* `raising_only_removes`      the main statement.
-/

namespace Chip8

def Logger.raised (l : Logger) (threshold : String) : Logger := { l with threshold }

def Logbook.raised (b : Logbook) (threshold : String) : Logbook :=
  { b with logger := b.logger.raised threshold }

/-- The line's own level reaches the threshold. -/
def Line.reaches (threshold : String) (x : Line) : Bool := Level.rankOf threshold ≤ Level.rankOf x.level

namespace Logger
variable {l : Logger} {threshold : String}

/-! ### One call -/

/-- What reaches the higher threshold reaches the lower one. -/
theorem reaches_raised_iff (hle : Level.rankOf l.threshold ≤ Level.rankOf threshold) (level : String) :
    (l.raised threshold).reaches level = true ↔
      Level.rankOf threshold ≤ Level.rankOf level ∧ l.reaches level = true := by
  show decide (Level.rankOf threshold ≤ Level.rankOf level) = true ↔ _
  rw [reaches, decide_eq_true_iff, decide_eq_true_iff]
  exact ⟨fun h => ⟨h, Nat.le_trans hle h⟩, fun h => h.1⟩

/-- Of the lines that are printed for some entries, those that reach the higher threshold are left. -/
theorem leveledLines_raised (hle : Level.rankOf l.threshold ≤ Level.rankOf threshold) (now : Float)
    (entries : List Entry) : (l.raised threshold).leveledLines now entries =
      (l.leveledLines now entries).filter (Line.reaches threshold) := by
  have hfilter : (entries.filter fun e => (l.raised threshold).reaches e.level) =
      entries.filter fun e => Line.reaches threshold ⟨e.level, l.line now e⟩ && l.reaches e.level := by
    refine List.filter_congr fun e _ => ?_
    rw [Bool.eq_iff_iff, Bool.and_eq_true, reaches_raised_iff hle, Line.reaches, decide_eq_true_iff]
  rw [leveledLines, leveledLines, List.filter_map, List.filter_filter, hfilter]
  rfl

/-- What a notice has to say does not depend on the threshold.  Statistics that are due note the time on
both sides. -/
theorem entries_raised (l : Logger) (threshold : String) (now : Float) (n : Notice) :
    (l.raised threshold).entries now n =
      (l.entries now n).map fun r => (r.1.raised threshold, r.2) := by
  cases n with
  | entry e => rfl
  | runStart config => rfl
  | fault f state => rfl
  | runEnd stats => rfl
  | frameStats frame stats interval =>
    rw [entries, entries, frameStats, frameStats]
    cases interval.int? with
    | none => rfl
    | some n =>
      dsimp only
      split
      · rfl
      · rfl

theorem threshold_entries {l' : Logger} {es : List Entry} {now : Float} {n : Notice}
    (h : l.entries now n = .ok (l', es)) : l'.threshold = l.threshold := by
  cases n with
  | frameStats frame stats interval =>
    rw [entries, frameStats] at h
    split at h
    · cases h
    · split at h
      · cases h
        rfl
      · cases h
        rfl
  | _ =>
    cases h
    rfl

end Logger

namespace Logbook
variable {b : Logbook} {threshold : String}

/-- The lines of an answer that reach a threshold; a refusal is kept. -/
def Answer.above (threshold : String) : Answer → Answer :=
  Except.map (List.filter (Line.reaches threshold))

/-! ### One step, and steps one after the other -/

theorem threshold_step (b : Logbook) (s : Step) : (b.step s).1.logger.threshold = b.logger.threshold := by
  cases s with
  | pass seconds => rfl
  | tell n =>
    rw [step]
    split
    · rename_i l' es h
      exact Logger.threshold_entries h
    · rfl

theorem step_raised (hle : Level.rankOf b.logger.threshold ≤ Level.rankOf threshold) (s : Step) :
    (b.raised threshold).step s = ((b.step s).1.raised threshold, (b.step s).2.above threshold) := by
  cases s with
  | pass seconds => rfl
  | tell n =>
    have hentries : (b.raised threshold).logger.entries (b.raised threshold).clock n =
        (b.logger.entries b.clock n).map fun r => (r.1.raised threshold, r.2) :=
      Logger.entries_raised b.logger threshold b.clock n
    rw [step, step, hentries]
    cases h : b.logger.entries b.clock n with
    | error e => rfl
    | ok r =>
      obtain ⟨l', es⟩ := r
      have hle' : Level.rankOf l'.threshold ≤ Level.rankOf threshold := by
        rw [Logger.threshold_entries h]
        exact hle
      have hlines := Logger.leveledLines_raised hle' b.clock es
      show (_, Except.ok ((l'.raised threshold).leveledLines b.clock es)) = _
      rw [hlines]
      rfl

/-- The induction is on the steps: each of them leaves two logs that differ in their threshold alone. -/
theorem keep_raised (hle : Level.rankOf b.logger.threshold ≤ Level.rankOf threshold) (steps : List Step) :
    (b.raised threshold).keep steps =
      ((b.keep steps).1.raised threshold, (b.keep steps).2.map (Answer.above threshold)) := by
  induction steps generalizing b with
  | nil => rfl
  | cons s steps ih =>
    have hnext : Level.rankOf (b.step s).1.logger.threshold ≤ Level.rankOf threshold := by
      rw [threshold_step]
      exact hle
    rw [keep, step_raised hle s]
    dsimp only
    rw [ih hnext]
    rfl

theorem lines_above (a : Answer) : (a.above threshold).lines = a.lines.filter (Line.reaches threshold) := by
  cases a with
  | ok lines => rfl
  | error e => rfl

/-- **Raising the threshold of a log only removes lines.**  Two logs that are the same but for their thresholds
stay so, whatever they are told, and the higher one prints those of the lines that reach its threshold. -/
theorem raising_only_removes (b : Logbook) {threshold : String}
    (hle : Level.rankOf b.logger.threshold ≤ Level.rankOf threshold) (steps : List Step) :
    (b.raised threshold).printed steps = (b.printed steps).filter (Line.reaches threshold) ∧
      ((b.raised threshold).keep steps).2 = (b.keep steps).2.map (Answer.above threshold) ∧
      ((b.raised threshold).keep steps).1 = (b.keep steps).1.raised threshold := by
  have hkeep := keep_raised hle steps
  refine ⟨?_, congrArg Prod.snd hkeep, congrArg Prod.fst hkeep⟩
  rw [printed, printed, hkeep, List.flatMap_map, List.filter_flatMap]
  exact congrArg (List.flatMap · _) (funext lines_above)

/-- Statistics that are due, are not due, and are never due, a level that is none, and an error, within eight
seconds.  Of the four lines of the one log the other one prints the last. -/
theorem raising_only_removes_warned :
    let b : Logbook := { logger := Logger.create "Machine" "debug" true true false 0 }
    let steps : List Step :=
      [.pass 1.5, .tell (.frameStats 60 [("fps", .float 59.94)] (.int 60)), .pass 0.25,
        .tell (.entry ⟨"notice", "hello"⟩), .tell (.frameStats 90 [] (.int 60)), .pass 6,
        .tell (.frameStats 120 [] (.int 0)), .tell (.frameStats 120 [("waiting", .bool true)] (.int 60)),
        .tell (.entry ⟨"Error", "over"⟩)]
    let lines : List Line :=
      [⟨"DEBUG", "[    1.50s][   DEBUG][Machine] Frame     60 ( 1.50s since last) | fps=59.9"⟩,
        ⟨"notice", "[    1.75s][  notice][Machine] hello"⟩,
        ⟨"DEBUG", "[    7.75s][   DEBUG][Machine] Frame    120 ( 6.25s since last) | waiting=True"⟩,
        ⟨"Error", "[    7.75s][   Error][Machine] over"⟩]
    Level.rankOf b.logger.threshold ≤ Level.rankOf "Warning" ∧ b.printed steps = lines ∧
      (b.raised "Warning").printed steps = [⟨"Error", "[    7.75s][   Error][Machine] over"⟩] := by
  intro b steps lines
  have hle : Level.rankOf b.logger.threshold ≤ Level.rankOf "Warning" := by decide
  have hlines : b.printed steps = lines := by decide +kernel
  refine ⟨hle, hlines, ?_⟩
  rw [(raising_only_removes b hle steps).1, hlines]
  decide

end Logbook

end Chip8
