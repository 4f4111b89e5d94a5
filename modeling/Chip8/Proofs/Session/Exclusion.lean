import Chip8.Proofs.Runs
import Chip8.Proofs.Session.Burst

/-!
# One run at a time

The running flag guards runs and resets.  A stop takes it down at once, while the frame in progress
goes on to its end; so the guard holds until the first stop, and not beyond it.

* `Gate`, `firstGate`   the events that are about the guard, and the first of them;
* `Keeps`               an action that leaves a running machine running unless it fails or somebody
                        stops the machine.  All that a frame does is of this kind, and so is a run
                        within a run, which is refused;
* `run_exclusive`       what this comes to for a run;
* `reset_within_run`    a run in which a stop lets a reset in.
-/

namespace Chip8

/-- What runs and resets leave in a trace. -/
inductive Gate where
  | began
  | ended
  | stopped
  | wasReset
  /-- A device found that the machine does not run. -/
  | foundIdle
  deriving DecidableEq, Repr

def Event.gate? : Event → Option Gate
  | began => some .began
  | ended => some .ended
  | stopped => some .stopped
  | wasReset => some .wasReset
  | observed false => some .foundIdle
  | _ => none

namespace Session

/-- The first of the events that is about runs and resets. -/
def firstGate (es : List Event) : Option Gate := (es.filterMap Event.gate?).head?

theorem firstGate_append (es fs : List Event) :
    firstGate (es ++ fs) = (firstGate es).or (firstGate fs) := by
  rw [firstGate, List.filterMap_append, List.head?_append]
  rfl

variable {σ α β : Type}

/-- The action leaves a running machine running, unless it fails, as long as nobody stops it. -/
def Keeps (a : Act σ α) : Prop :=
  ∀ (s : Session σ) (r : Except Failure α) (t : Session σ), exec a s = (r, t) →
    ∃ es : List Event, t.trace = s.trace ++ es.toArray ∧
      (s.machine.running = true →
        firstGate es = none ∧ (r.isOk = true → t.machine.running = true) ∨
          firstGate es = some .stopped)

namespace Keeps

theorem pure (x : α) : Keeps (pure x : Act σ α) := by
  intro s r t h
  cases h
  exact ⟨[], by simp, fun hs => .inl ⟨rfl, fun _ => hs⟩⟩

theorem throw (e : Failure) : Keeps (throw e : Act σ α) := by
  intro s r t h
  cases h
  exact ⟨[], by simp, fun hs => .inl ⟨rfl, fun _ => hs⟩⟩

theorem bind {a : Act σ α} {f : α → Act σ β} (ha : Keeps a) (hf : ∀ x, Keeps (f x)) :
    Keeps (a >>= f) := by
  intro s r u h
  obtain ⟨x, t, hx, hu⟩ | ⟨e, hx, rfl⟩ := exec_bind_cases h
  · obtain ⟨es, ht, hes⟩ := ha s _ t hx
    obtain ⟨fs, hu, hfs⟩ := hf x t r u hu
    refine ⟨es ++ fs, by rw [hu, ht, Array.append_assoc, List.append_toArray es], fun hs => ?_⟩
    rw [firstGate_append]
    obtain ⟨hnone, hrun⟩ | hstop := hes hs
    · rw [hnone]
      exact hfs (hrun rfl)
    · rw [hstop]
      exact .inr rfl
  · obtain ⟨es, ht, hes⟩ := ha s _ u hx
    refine ⟨es, ht, fun hs => ?_⟩
    obtain ⟨hnone, -⟩ | hstop := hes hs
    · exact .inl ⟨hnone, nofun⟩
    · exact .inr hstop

theorem get {f : Session σ → Act σ β} (hf : ∀ s, Keeps (f s)) : Keeps (get >>= f) :=
  fun s r t h => hf s s r t h

theorem modify {f : Session σ → Session σ} (htrace : ∀ s, (f s).trace = s.trace)
    (hrun : ∀ s, (f s).machine.running = s.machine.running) : Keeps (modify f : Act σ) := by
  intro s r t h
  cases h
  exact ⟨[], by simp [htrace], fun hs => .inl ⟨rfl, fun _ => (hrun s).trans hs⟩⟩

theorem onMachine {f : Machine → Machine} (hf : ∀ m, (f m).running = m.running) :
    Keeps (onMachine f : Act σ) :=
  .modify (fun _ => rfl) fun s => hf s.machine

theorem record {e : Event} (he : e.gate? = none) : Keeps (record e : Act σ) := by
  intro s r t h
  rw [exec_record] at h
  cases h
  refine ⟨[e], rfl, fun hs => .inl ⟨?_, fun _ => hs⟩⟩
  rw [firstGate, List.filterMap_cons_none he]
  rfl

theorem print (entries : List Entry) : Keeps (print entries : Act σ) := by
  intro s r t h
  rw [exec_print] at h
  cases h
  refine ⟨_, rfl, fun hs => .inl ⟨?_, fun _ => hs⟩⟩
  rw [firstGate, List.filterMap_eq_nil_iff.mpr]
  · rfl
  · simp [Event.gate?]

theorem advance (d : Float) : Keeps (advance d : Act σ) := .modify (fun _ => rfl) fun _ => rfl

theorem observe :
    Keeps (do Session.record (.observed (← MonadState.get).machine.running) : Act σ) := by
  intro s r t h
  rw [exec_get_bind, exec_record] at h
  cases h
  refine ⟨[.observed s.machine.running], rfl, fun hs => .inl ⟨?_, fun _ => hs⟩⟩
  rw [hs]
  rfl

theorem stop : Keeps (stop : Act σ) := by
  intro s r t h
  rw [exec_stop] at h
  cases h
  exact ⟨[.stopped], rfl, fun _ => .inr rfl⟩

theorem onKeypad (f : Keypad → Except Keypad.Error Keypad) : Keeps (onKeypad f : Act σ) := by
  refine get fun s => ?_
  cases f s.machine.keypad with
  | ok keypad => exact onMachine fun _ => rfl
  | error e => exact throw _

theorem syncKeypad : Keeps (syncKeypad : Act σ) :=
  get fun _ => (record rfl).bind fun _ => onMachine fun _ => rfl

end Keeps

/-! ### The guard of a run -/

/-- A reset of a running machine is refused, and nothing changes. -/
theorem exec_reset_running {s : Session σ} (h : s.machine.running = true) :
    exec reset s = (.error .resetWhileRunning, s) := by
  rw [reset, exec_get_bind]
  simp only [h]
  rfl

/-- A run of a running machine is refused, and nothing changes. -/
theorem exec_guarded_running {s : Session σ} (h : s.machine.running = true) (loop : Act σ) :
    exec (guarded loop) s = (.error .alreadyRunning, s) := by
  rw [guarded, exec_get_bind]
  simp only [h]
  rfl

/-- The session in which the frames of a run begin. -/
def entered (s : Session σ) : Session σ :=
  let t := { s with machine := { s.machine with running := true } }.log [.began]
  t.log ((t.logger.lines t.clock (Report.runStart t.machine.config)).map .printed)

/-- The session that a run leaves when its loop is over. -/
def left (s : Session σ) : Session σ :=
  let t := { s with machine := { s.machine with running := false } }.log [.ended]
  t.log ((t.logger.lines t.clock
    (Report.runEnd (t.clock - t.logger.started) t.machine.stats)).map .printed)

theorem entered_trace (s : Session σ) : ∃ lines : List String,
    s.entered.trace = s.trace ++ (Event.began :: lines.map .printed).toArray :=
  ⟨_, congrArg trace (log_log { s with machine := { s.machine with running := true } } [.began] _)⟩

theorem left_trace (s : Session σ) : ∃ lines : List String,
    s.left.trace = s.trace ++ (Event.ended :: lines.map .printed).toArray :=
  ⟨_, congrArg trace (log_log { s with machine := { s.machine with running := false } } [.ended] _)⟩

theorem exec_enter (s : Session σ) : exec enter s = (.ok (), s.entered) := by
  rw [enter, exec_bind_ok (exec_onMachine _ s), exec_bind_ok (exec_record _ _), exec_get_bind,
    exec_print]
  rfl

theorem exec_leave (s : Session σ) : exec leave s = (.ok (), s.left) := by
  rw [leave, exec_bind_ok (exec_onMachine _ s), exec_bind_ok (exec_record _ _), exec_get_bind,
    exec_print]
  rfl

theorem exec_lift (a : Act σ) (s : Session σ) :
    exec (ExceptT.lift a.run : Act σ (Except Failure Unit)) s = (.ok (exec a s).1, (exec a s).2) :=
  rfl

/-- A run that is let in comes to the result of its loop. -/
theorem exec_guarded_stopped {s : Session σ} (h : s.machine.running = false) (loop : Act σ) :
    exec (guarded loop) s = ((exec loop s.entered).1, (exec loop s.entered).2.left) := by
  rw [guarded, exec_get_bind, h, if_neg Bool.false_ne_true]
  dsimp only
  rw [exec_bind_ok (exec_enter s), exec_bind_ok (exec_lift loop _), exec_bind_ok (exec_leave _)]
  cases (exec loop s.entered).1 <;> rfl

theorem exec_reset_ok {s : Session σ} {m : Machine} (h : s.machine.running = false)
    (hm : s.machine.reset = .ok m) :
    exec reset s = (.ok (), { s with machine := m }.log [.wasReset]) := by
  rw [reset, exec_get_bind]
  simp only [h, Bool.false_eq_true, if_false, hm]
  rw [exec_bind_ok (exec_modify _ s), exec_record]

theorem exec_reset_error {s : Session σ} {c : Cause} (h : s.machine.running = false)
    (hm : s.machine.reset = .error c) : exec reset s = (.error (.fault { cause := c }), s) := by
  rw [reset, exec_get_bind]
  simp only [h, Bool.false_eq_true, if_false, hm]
  rfl

theorem exec_reset_stopped {s : Session σ} (h : s.machine.running = false) :
    ∃ es : List Event, (exec reset s).2.trace = s.trace ++ es.toArray := by
  cases hm : s.machine.reset with
  | error c =>
    rw [exec_reset_error h hm]
    exact ⟨[], by simp⟩
  | ok m =>
    rw [exec_reset_ok h hm]
    exact ⟨[.wasReset], rfl⟩

/-- From `s` to `t` a run was let in and came to its end; `es` happened in between. -/
def Ran (s t : Session σ) (es : List Event) : Prop :=
  ∃ starting ending : List String, t.trace = s.trace ++
    (Event.began :: (starting.map .printed ++ es) ++ Event.ended :: ending.map .printed).toArray

theorem ran_guarded {s : Session σ} (hs : s.machine.running = false) {loop : Act σ}
    (h : Keeps loop) : ∃ es, Ran s (exec (guarded loop) s).2 es ∧
      (firstGate es = none ∨ firstGate es = some .stopped) := by
  rw [exec_guarded_stopped hs]
  obtain ⟨es, ht, hes⟩ := h s.entered (exec loop s.entered).1 (exec loop s.entered).2 rfl
  obtain ⟨starting, hstart⟩ := entered_trace s
  obtain ⟨ending, hend⟩ := left_trace (exec loop s.entered).2
  refine ⟨es, ⟨starting, ending, ?_⟩, (hes rfl).imp_left And.left⟩
  rw [hend, ht, hstart]
  simp

namespace Keeps

/-! ### Every action of a frame keeps the machine running -/

theorem reset : Keeps (reset : Act σ) := by
  intro s r t h
  cases hs : s.machine.running with
  | true =>
    rw [exec_reset_running hs] at h
    cases h
    exact ⟨[], by simp, fun _ => .inl ⟨rfl, nofun⟩⟩
  | false =>
    obtain ⟨es, ht⟩ := exec_reset_stopped hs
    rw [h] at ht
    exact ⟨es, ht, nofun⟩

theorem step : Keeps (step : Act σ Bool) := by
  intro s r t h
  cases hs : s.machine.state.step with
  | error f =>
    obtain ⟨lines, hx⟩ := exec_step_error hs
    rw [hx] at h
    cases h
    refine ⟨_, rfl, fun _ => .inl ⟨?_, nofun⟩⟩
    rw [firstGate, List.filterMap_cons_none rfl, List.filterMap_eq_nil_iff.mpr]
    · rfl
    · simp [Event.gate?]
  | ok a =>
    rw [exec_step_ok hs] at h
    cases h
    exact ⟨_, rfl, fun hs => .inl ⟨rfl, fun _ => hs⟩⟩

theorem changeKeys (cs : List Keypad.Change) : Keeps (changeKeys cs : Act σ) := by
  induction cs with
  | nil => exact pure _
  | cons c cs ih => exact (onKeypad _).bind fun _ => ih

theorem followScript : Keeps (followScript : Act σ) := by
  refine get fun s => ?_
  cases s.script with
  | nil => exact pure _
  | cons cs rest =>
    refine bind ?_ fun _ => changeKeys cs
    exact modify (fun _ => rfl) fun _ => rfl

theorem waitForPress (timeout : Float) : Keeps (waitForPress timeout : Act σ Bool) := by
  refine (record rfl).bind fun _ => followScript.bind fun _ => get fun s => bind ?_ fun _ => ?_
  · exact onMachine fun _ => rfl
  · cases s.machine.keypad.wake with
    | key | interrupt => exact pure _
    | timeout => exact (advance timeout).bind fun _ => pure _

theorem awaitKey (p : Pace) : Keeps (awaitKey p : Act σ Bool) := by
  refine get fun s => (waitForPress _).bind fun key => ?_
  cases key with
  | false => exact pure _
  | true => exact syncKeypad.bind fun _ => pure _

theorem sleepUntil (p : Pace) (moment : Float) : Keeps (p.sleepUntil moment : Act σ) := by
  rw [Pace.sleepUntil]
  cases p.paced with
  | false => exact pure _
  | true =>
    refine get fun s => ?_
    dsimp only
    split
    · exact (record rfl).bind fun _ => advance _
    · exact pure _

theorem round (p : Pace) : Keeps (round p : Act σ Round) := by
  have hstep :
      Keeps (do if ← Session.step then return .completed else return .waits : Act σ Round) := by
    refine step.bind fun b => ?_
    cases b <;> exact pure _
  refine get fun s => ?_
  cases s.machine.waiting with
  | false => exact hstep
  | true =>
    refine (awaitKey p).bind fun key => ?_
    cases key with
    | false => exact pure _
    | true => exact hstep

theorem rounds (p : Pace) (total n executed : Nat) : Keeps (rounds p total n executed : Act σ) := by
  induction n generalizing executed with
  | zero =>
    rw [Session.rounds]
    split
    · exact throw _
    · exact pure _
  | succ n ih =>
    rw [Session.rounds]
    split
    · refine (round p).bind fun r => ?_
      cases r with
      | held => exact pure _
      | waits => exact ih executed
      | completed => exact (sleepUntil p _).bind fun _ => ih (executed + 1)
    · exact pure _

theorem burst (p : Pace) {total : Nat} (h : 0 < total) : Keeps (burst p total : Act σ) := by
  rw [burst_eq_rounds p h (Nat.le_refl _)]
  exact rounds p total _ 0

variable {run : Act σ}

theorem perform (hrun : Keeps run) (q : Request) : Keeps (perform run q) := by
  cases q with
  | run => exact hrun
  | reset => exact reset
  | stop => exact stop
  | advance seconds => exact advance seconds
  | observe => exact observe
  | keypad c => exact onKeypad fun p => p.change c

theorem performAll (hrun : Keeps run) (turns : List (Turn σ)) : Keeps (performAll run turns) := by
  induction turns with
  | nil => exact pure _
  | cons turn turns ih =>
    refine get fun s => ?_
    cases turn s.machine.keypad.keys s.devices with
    | none => exact ih
    | some q => exact (perform hrun q).bind fun _ => ih

theorem call (hrun : Keeps run) {event : Event} (he : event.gate? = none)
    (callback : Callback σ) : Keeps (call run event callback) := by
  refine (record he).bind fun _ => get fun s => bind ?_ fun _ => performAll hrun _
  exact modify (fun _ => rfl) fun _ => rfl

theorem countFrame : Keeps (countFrame : Act σ) := by
  refine bind ?_ fun _ => get fun s => ?_
  · exact onMachine fun _ => rfl
  · dsimp only
    split
    · refine bind ?_ fun _ => print _
      exact modify (fun _ => rfl) fun _ => rfl
    · exact throw _

theorem endFrame (hrun : Keeps run) (devices : Peripherals σ) : Keeps (endFrame devices run) := by
  have hsound : Keeps (soundTone devices run) := by
    refine get fun s => ?_
    split
    · exact call hrun rfl devices.sound
    · exact pure _
  have htick : Keeps (tick : Act σ) := by
    refine bind ?_ fun _ => record rfl
    exact onMachine fun _ => rfl
  have hrender : Keeps (renderDisplay devices run) := get fun _ => call hrun rfl _
  exact hsound.bind fun _ => htick.bind fun _ => hrender.bind fun _ => countFrame

theorem frame (hrun : Keeps run) (devices : Peripherals σ) (paced : Bool) :
    Keeps (frame devices run paced) := by
  refine get fun s => ?_
  split
  · refine get fun s => (call hrun rfl devices.poll).bind fun _ => syncKeypad.bind fun _ => ?_
    exact (burst _ s.machine.rates.instructionsPerFrame_pos).bind fun _ =>
      (sleepUntil _ _).bind fun _ => endFrame hrun devices
  · exact throw _

/-- A run inside a run is refused; one that is let in has found no running machine to keep. -/
theorem guarded {loop : Act σ} (h : Keeps loop) : Keeps (guarded loop) := by
  intro s r t hx
  cases hs : s.machine.running with
  | true =>
    rw [exec_guarded_running hs] at hx
    cases hx
    exact ⟨[], by simp, fun _ => .inl ⟨rfl, nofun⟩⟩
  | false =>
    obtain ⟨es, ⟨starting, ending, ht⟩, -⟩ := ran_guarded hs h
    rw [hx] at ht
    exact ⟨_, ht, nofun⟩

theorem frames (devices : Peripherals σ) (fuel : Nat) : ∀ (paced : Bool) (limit : Option Int)
    (done : Nat), Keeps (frames devices paced limit fuel done) := by
  induction fuel with
  | zero => exact fun _ _ _ => throw _
  | succ fuel ih =>
    intro paced limit done
    unfold Session.frames
    refine get fun s => ?_
    split
    · refine (frame (guarded (ih true none 0)) devices paced).bind fun _ => ?_
      cases limit with
      | none => exact ih _ _ _
      | some n =>
        dsimp only
        split
        · exact ih _ _ _
        · exact pure _
    · exact pure _

end Keeps

/-- **One run at a time, until a stop.**  A running machine refuses to run and to be reset, and
nothing changes.  A machine that does not run lets a run in, and as long as nobody has stopped it
then, no other run is let in, nothing is reset, and the devices find the machine running. -/
theorem run_exclusive (devices : Peripherals σ) (fuel : Nat) (limit : Option Int) (paced : Bool)
    (s : Session σ) :
    if s.machine.running then
      exec (run devices fuel limit paced) s = (.error .alreadyRunning, s) ∧
        exec reset s = (.error .resetWhileRunning, s)
    else ∃ es, Ran s (exec (run devices fuel limit paced) s).2 es ∧
      (firstGate es = none ∨ firstGate es = some .stopped) := by
  cases hs : s.machine.running with
  | true => exact ⟨exec_guarded_running hs _, exec_reset_running hs⟩
  | false => exact ran_guarded hs (Keeps.frames devices fuel paced limit 0)

/-- One instruction a frame, and a program that jumps to itself. -/
def looping : Session Unit where
  machine :=
    { settings := { logInterval := .int 0 }
      rates := { frequency := 1, fps := 1 }
      rng := ⟨0, 0⟩
      state := (State.initial ⟨0, 0⟩ false).after [.load [0x12, 0x00]]
      program := [0x12, 0x00] }
  logger := { name := "" }
  devices := ()

/-- Devices that stop and reset the machine when they are polled. -/
def stopping : Peripherals Unit :=
  { Peripherals.none with poll := fun _ d => (d, [fun _ _ => some .stop, fun _ _ => some .reset]) }

/-- A stop takes effect at once, and not at the end of the frame: the reset that comes after it is
done in the middle of the run. -/
theorem reset_within_run : ∃ t, exec (run stopping 1 (some 1) false) looping = (.ok (), t) ∧
    t.trace.toList.filterMap Event.gate? = [.began, .stopped, .wasReset, .ended] := by
  let u := looping.entered
  let inner : Act Unit := guarded (frames stopping true none 0 0)
  have hframe := exec_frame (s := u) (by decide +kernel) stopping inner false
  have hok : (exec (frame stopping inner false) u).1.isOk = true := by
    rw [hframe]
    decide +kernel
  have hframes : exec (frames stopping false (some 1) 1 0) u =
      (.ok (), (exec (frame stopping inner false) u).2) := by
    unfold frames
    rw [exec_get_bind]
    exact exec_bind_ok (exec_eq_of_isOk hok) _
  rw [run, exec_guarded_stopped rfl, hframes]
  refine ⟨_, rfl, ?_⟩
  rw [hframe]
  decide +kernel

end Session

end Chip8
