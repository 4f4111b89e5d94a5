import Chip8.Proofs.Session.Lockstep
import Chip8.Proofs.Session.Operations
import Chip8.Proofs.Session.Tuned

/-!
# Histories side by side

Two histories are compared of which the times do not count.  Whatever an action reads of the machine,
the clock apart, is the same in both sessions: so for most actions there is no more to do than to follow
their steps (`Coupled.bind`).  The clock is read by waits, by sleeps and by the log, and there it has to
be seen that what they come to does not depend on it.  The sound timer is read at one place only, so it
may differ too, provided that the sounds do not tell.

* `Event.untimed?`      an event without its time; sleeps and lines of the log are nothing but time;
* `Request.Retimed`     the same request, but for the time;
* `Abreast R D`         what has to be shown of `R`, the sessions that are alike, and of `D`, the devices
                        that are: how `R` goes through a change of one part of a session;
* `Alongside R D`       devices that keep what `R` says when they are called in a frame;
* `Operation.Beside Q`  the same operations, among devices that `Q` relates;
* `Abreast.frame`, `Abreast.run`, `Abreast.act`   frames, runs and operations are coupled then;
* `Abreast.history`     whole histories are.
-/

namespace Chip8

def Event.untimed? : Event → Option Event
  | awaited _ => some (awaited 0)
  | slept _ | printed _ => none
  | e => some e

theorem Event.untimed?_sleeps (sleeps : List Float) :
    (sleeps.map slept).filterMap untimed? = [] := by
  simp [untimed?]

theorem Event.untimed?_lines (lines : List String) :
    (lines.map printed).filterMap untimed? = [] := by
  simp [untimed?]

inductive Request.Retimed : Request → Request → Prop
  | advance (seconds seconds' : Float) : Retimed (.advance seconds) (.advance seconds')
  | same (q : Request) : Retimed q q

/-- The devices of an operation that calls them. -/
def Operation.devices? {σ : Type} : Operation σ → Option (Peripherals σ)
  | runFrame devices _ _ | run devices _ _ _ => some devices
  | _ => none

/-- The same operation, paced or not and with any time, among devices that `Q` relates. -/
inductive Operation.Beside {σ : Type} (Q : Peripherals σ → Peripherals σ → Prop) :
    Operation σ → Operation σ → Prop
  | runFrame {devices devices' : Peripherals σ} (h : Q devices devices') (fuel : Nat)
      (paced paced' : Bool) :
      Beside Q (.runFrame devices fuel paced) (.runFrame devices' fuel paced')
  | run {devices devices' : Peripherals σ} (h : Q devices devices') (fuel : Nat)
      (limit : Option Int) (paced paced' : Bool) :
      Beside Q (.run devices fuel limit paced) (.run devices' fuel limit paced')
  | advance (seconds seconds' : Float) : Beside Q (.advance seconds) (.advance seconds')
  | same {o : Operation σ} (h : o.devices? = none) : Beside Q o o

theorem Operation.Beside.self {σ : Type} {Q : Peripherals σ → Peripherals σ → Prop} {o : Operation σ}
    (h : ∀ devices ∈ o.devices?, Q devices devices) : o.Beside Q o := by
  cases o with
  | runFrame devices fuel paced => exact .runFrame (h devices rfl) fuel paced paced
  | run devices fuel limit paced => exact .run (h devices rfl) fuel limit paced paced
  | _ => exact .same rfl

namespace Session

variable {σ : Type}

/-- Sessions that are alike have the same machine, but for the sound timer, and stay alike when one part
of them changes.  A word that is executed changes the machine at the same time. -/
structure Abreast (R : Session σ → Session σ → Prop) (D : σ → σ → Prop) : Prop where
  machine : ∀ {s t}, R s t → s.machine.SameButSound t.machine
  devices : ∀ {s t}, R s t → D s.devices t.devices
  script : ∀ {s t}, R s t → s.script = t.script
  refl : ∀ d, D d d
  equip : ∀ {s t} {d d' : σ}, D d d' → R s t → R { s with devices := d } { t with devices := d' }
  rescript : ∀ {s t} (script : List (List Keypad.Change)), R s t →
    R { s with script } { t with script }
  time : ∀ {s t} (clock clock' : Float) (logger logger' : Logger), R s t →
    R { s with clock, logger } { t with clock := clock', logger := logger' }
  log : ∀ {s t} {es fs : List Event}, es.filterMap Event.untimed? = fs.filterMap Event.untimed? →
    (∀ w, .executed w ∉ es) → R s t → R (s.log es) (t.log fs)
  change : ∀ {s t} {f : Machine → Machine}, Machine.Deaf f → R s t →
    R { s with machine := f s.machine } { t with machine := f t.machine }
  execute : ∀ {s t} {a b : State} {w : UInt16}, s.machine.state.step = .ok (a, w) →
    t.machine.state.step = .ok (b, w) → R s t →
    R { s.log [.executed w] with machine := s.machine.stepped a w }
      { t.log [.executed w] with machine := t.machine.stepped b w }

namespace Abreast

variable {R : Session σ → Session σ → Prop} {D : σ → σ → Prop} {s t : Session σ}

/-- What is told by all of the machine but the sound timer. -/
theorem read {α : Type} (h : Abreast R D) {f : Machine → α} (hf : ∀ m n, f (m.tuned n) = f m)
    (hst : R s t) : f s.machine = f t.machine := by
  obtain ⟨n, hm⟩ := h.machine hst
  rw [hm, hf]

/-! ### The small actions -/

theorem record (h : Abreast R D) {e : Event} (he : ∀ w, e ≠ .executed w) :
    Coupled R (record e) (record e) := by
  intro s t hst
  rw [exec_record, exec_record]
  exact ⟨rfl, h.log rfl (fun w hw => he w (List.mem_singleton.mp hw).symm) hst⟩

theorem onMachine (h : Abreast R D) {f : Machine → Machine} (hf : Machine.Deaf f) :
    Coupled R (onMachine f) (onMachine f) :=
  .alter fun _ _ hst => h.change hf hst

theorem advance (h : Abreast R D) (d d' : Float) : Coupled R (advance d) (advance d') :=
  .alter fun s t hst => h.time (s.clock + d) (t.clock + d') s.logger t.logger hst

/-- Whatever is printed does not count. -/
theorem print (h : Abreast R D) (entries entries' : List Entry) :
    Coupled R (print entries) (print entries') := by
  intro s t hst
  rw [exec_print, exec_print]
  refine ⟨rfl, h.log ?_ (by simp) hst⟩
  rw [Event.untimed?_lines, Event.untimed?_lines]

theorem putKeypad (h : Abreast R D) (keypad : Keypad) :
    Coupled R (Session.onMachine fun m => { m with keypad })
      (Session.onMachine fun m => { m with keypad }) :=
  h.onMachine fun _ n => ⟨n, rfl⟩

theorem setRunning (h : Abreast R D) (running : Bool) :
    Coupled R (Session.onMachine fun m => { m with running })
      (Session.onMachine fun m => { m with running }) :=
  h.onMachine fun _ n => ⟨n, rfl⟩

theorem stop (h : Abreast R D) : Coupled R stop stop :=
  (h.onMachine fun _ n => ⟨n, rfl⟩).bind fun _ => h.record (by simp)

theorem onKeypad (h : Abreast R D) (f : Keypad → Except Keypad.Error Keypad) :
    Coupled R (onKeypad f) (onKeypad f) := by
  refine .get fun s t hst => ?_
  rw [h.read (f := Machine.keypad) (fun _ _ => rfl) hst]
  cases f t.machine.keypad with
  | ok keypad => exact h.putKeypad keypad
  | error e => exact .throw _

theorem syncKeypad (h : Abreast R D) : Coupled R syncKeypad syncKeypad := by
  refine .get fun s t hst => ?_
  rw [h.read (f := Machine.keypad) (fun _ _ => rfl) hst]
  exact (h.record (by simp)).bind fun _ => h.onMachine fun _ n => ⟨n, rfl⟩

theorem step (h : Abreast R D) : Coupled R step step := by
  intro s t hst
  obtain ⟨f, hs, ht⟩ | ⟨a, b, w, hs, ht⟩ := (h.machine hst).step_cases
  · obtain ⟨lines, hs⟩ := exec_step_error hs
    obtain ⟨lines', ht⟩ := exec_step_error ht
    rw [hs, ht]
    have hlog : (Event.faulted f :: lines.map .printed).filterMap Event.untimed? =
        (Event.faulted f :: lines'.map .printed).filterMap Event.untimed? := by
      rw [List.filterMap_cons, List.filterMap_cons, Event.untimed?_lines, Event.untimed?_lines]
    exact ⟨rfl, (h.setRunning false _ _ (h.log hlog (by simp) hst)).2⟩
  · obtain ⟨⟨n, hsame⟩, -⟩ := (h.machine hst).stepped hs ht
    have hwaits : s.machine.state.waits a w = t.machine.state.waits b w :=
      congrArg Machine.waiting hsame
    rw [exec_step_ok hs, exec_step_ok ht, hwaits]
    exact ⟨rfl, h.execute hs ht hst⟩

theorem load (h : Abreast R D) (program : List UInt8) : Coupled R (load program) (load program) := by
  intro s t hst
  have hs := s.machine.load_eq program
  have ht := t.machine.load_eq program
  by_cases hlen : 3584 < program.length
  · rw [if_pos hlen] at hs ht
    rw [exec_load_error hs, exec_load_error ht]
    exact ⟨rfl, hst⟩
  · rw [if_neg hlen] at hs ht
    rw [exec_load_ok hs, exec_load_ok ht]
    exact ⟨rfl, h.change (Machine.deaf_load program) hst⟩

theorem loadFile (h : Abreast R D) (name : String) (contents : Except File.Error (List UInt8)) :
    Coupled R (loadFile name contents) (loadFile name contents) := by
  cases contents with
  | error e => exact .throw _
  | ok program => exact (h.load program).bind fun _ => h.print _ _

theorem reset (h : Abreast R D) : Coupled R reset reset := by
  intro s t hst
  have hrunning : s.machine.running = t.machine.running := h.read (fun _ _ => rfl) hst
  have hprogram : s.machine.program = t.machine.program := h.read (fun _ _ => rfl) hst
  cases hstopped : t.machine.running with
  | true =>
    rw [exec_reset_running (hrunning.trans hstopped), exec_reset_running hstopped]
    exact ⟨rfl, hst⟩
  | false =>
    have hs := s.machine.reset_eq
    have ht := t.machine.reset_eq
    rw [hprogram] at hs
    by_cases hlen : 3584 < t.machine.program.length
    · rw [if_pos hlen] at hs ht
      rw [exec_reset_error (hrunning.trans hstopped) hs, exec_reset_error hstopped ht]
      exact ⟨rfl, hst⟩
    · rw [if_neg hlen] at hs ht
      rw [exec_reset_ok (hrunning.trans hstopped) hs, exec_reset_ok hstopped ht]
      exact ⟨rfl, h.log rfl (by simp) (h.change Machine.deaf_renewed hst)⟩

/-! ### Waiting and sleeping -/

theorem changeKeys (h : Abreast R D) (cs : List Keypad.Change) :
    Coupled R (changeKeys cs) (changeKeys cs) := by
  induction cs with
  | nil => exact .pure _
  | cons c cs ih => exact (h.onKeypad _).bind fun _ => ih

theorem followScript (h : Abreast R D) : Coupled R followScript followScript := by
  refine .get fun s t hst => ?_
  rw [h.script hst]
  cases t.script with
  | nil => exact .pure _
  | cons cs rest =>
    refine Coupled.bind ?_ fun _ => h.changeKeys cs
    exact .alter fun _ _ huv => h.rescript rest huv

/-- What ends a wait does not depend on how long it may take. -/
theorem waitForPress (h : Abreast R D) (timeout timeout' : Float) :
    Coupled R (waitForPress timeout) (waitForPress timeout') := by
  have hawaited : Coupled R (Session.record (.awaited timeout))
      (Session.record (.awaited timeout')) := by
    intro s t hst
    rw [exec_record, exec_record]
    exact ⟨rfl, h.log rfl (by simp) hst⟩
  refine hawaited.bind fun _ => h.followScript.bind fun _ => .get fun s t hst => ?_
  dsimp only
  rw [h.read (f := Machine.keypad) (fun _ _ => rfl) hst]
  refine (h.putKeypad _).bind fun _ => ?_
  cases t.machine.keypad.wake with
  | key | interrupt => exact .pure _
  | timeout => exact (h.advance _ _).bind fun _ => .pure _

theorem awaitKey (h : Abreast R D) (p q : Pace) : Coupled R (awaitKey p) (awaitKey q) := by
  refine .get fun s t _ => (h.waitForPress _ _).bind fun key => ?_
  cases key with
  | false => exact .pure _
  | true => exact h.syncKeypad.bind fun _ => .pure _

theorem sleepUntil (h : Abreast R D) (p q : Pace) (moment moment' : Float) :
    Coupled R (p.sleepUntil moment) (q.sleepUntil moment') := by
  intro s t hst
  obtain ⟨sleeps, clock, hs⟩ := exec_sleepUntil p moment s
  obtain ⟨sleeps', clock', ht⟩ := exec_sleepUntil q moment' t
  have hlog : R (s.log (sleeps.map .slept)) (t.log (sleeps'.map .slept)) := by
    refine h.log ?_ (by simp) hst
    rw [Event.untimed?_sleeps, Event.untimed?_sleeps]
  rw [hs, ht]
  exact ⟨rfl, h.time clock clock' s.logger t.logger hlog⟩

/-! ### Frames -/

theorem countFrame (h : Abreast R D) : Coupled R countFrame countFrame := by
  refine (h.onMachine fun _ n => ⟨n, rfl⟩).bind fun _ => .get fun s t hst => ?_
  have hcount : s.machine.frameCount = t.machine.frameCount := h.read (fun _ _ => rfl) hst
  have hstats : s.machine.stats = t.machine.stats := h.read (fun _ _ => rfl) hst
  have hsettings : s.machine.settings = t.machine.settings := h.read (fun _ _ => rfl) hst
  dsimp only
  rw [hcount, hstats, hsettings]
  obtain ⟨e, hs, ht⟩ | ⟨x, y, hs, ht⟩ := Logger.frameStats_cases s.logger t.logger s.clock t.clock
    t.machine.frameCount t.machine.stats t.machine.settings.logInterval
  · rw [hs, ht]
    exact .throw _
  · rw [hs, ht]
    refine Coupled.bind ?_ fun _ => h.print _ _
    exact .alter fun u v huv => h.time u.clock v.clock x.1 y.1 huv

/-- Frames of any paces may stand side by side. -/
theorem lockstep (h : Abreast R D) : Lockstep R D fun _ _ => True where
  waiting hst := h.read (fun _ _ => rfl) hst
  rates hst := h.read (fun _ _ => rfl) hst
  display hst := h.read (f := fun m => m.state.display) (fun _ _ => rfl) hst
  keys hst := h.read (f := fun m => m.keypad.keys) (fun _ _ => rfl) hst
  devices := h.devices
  equip := h.equip
  step := h.step
  awaitKey _ := h.awaitKey _ _
  sleep _ _ := h.sleepUntil _ _ _ _
  rest _ := h.sleepUntil _ _ _ _
  call he := h.record fun w hw => by obtain he | he | ⟨_, he⟩ := he <;> cases he.symm.trans hw
  syncKeypad := h.syncKeypad
  tick := (h.onMachine Machine.deaf_tick).bind fun _ => h.record (by simp)
  countFrame := h.countFrame

end Abreast

/-- Devices that poll and render in step, and of which the sounds, if there are any, leave the sessions
alike. -/
structure Alongside (R : Session σ → Session σ → Prop) (D : σ → σ → Prop)
    (devices devices' : Peripherals σ) : Prop where
  inStep : devices.InStep D Request.Retimed devices'
  tone : ∀ {inner inner' : Act σ}, Coupled R inner inner' →
    Coupled R (soundTone devices inner) (soundTone devices' inner')

namespace Abreast

variable {R : Session σ → Session σ → Prop} {D : σ → σ → Prop} {s t : Session σ}
  {inner inner' loop loop' : Act σ} {devices devices' : Peripherals σ} {paced paced' : Bool}

theorem perform (h : Abreast R D) (hinner : Coupled R inner inner') {q q' : Request}
    (hq : q.Retimed q') : Coupled R (perform inner q) (perform inner' q') := by
  cases hq with
  | advance seconds seconds' => exact h.advance _ _
  | same =>
    cases q with
    | run => exact hinner
    | reset => exact h.reset
    | stop => exact h.stop
    | advance seconds => exact h.advance _ _
    | observe =>
      refine .get fun s t hst => ?_
      rw [h.read (f := Machine.running) (fun _ _ => rfl) hst]
      exact h.record (by simp)
    | keypad c => exact h.onKeypad fun p => p.change c

theorem frame (h : Abreast R D) (hinner : Coupled R inner inner') (hd : Alongside R D devices devices') :
    Coupled R (frame devices inner paced) (frame devices' inner' paced') :=
  h.lockstep.frame hd.inStep (fun _ _ hq => h.perform hinner hq) (hd.tone hinner)
    fun _ _ _ _ _ _ => trivial

/-! ### Runs -/

theorem entered (h : Abreast R D) (hst : R s t) : R s.entered t.entered := by
  have henter : Coupled R enter enter :=
    (h.setRunning true).bind fun _ => (h.record (by simp)).bind fun _ =>
      .get fun _ _ _ => h.print _ _
  have hentered := (henter s t hst).2
  rw [exec_enter, exec_enter] at hentered
  exact hentered

theorem left (h : Abreast R D) (hst : R s t) : R s.left t.left := by
  have hleave : Coupled R leave leave :=
    (h.setRunning false).bind fun _ => (h.record (by simp)).bind fun _ =>
      .get fun _ _ _ => h.print _ _
  have hleft := (hleave s t hst).2
  rw [exec_leave, exec_leave] at hleft
  exact hleft

theorem guarded (h : Abreast R D) (hloop : Coupled R loop loop') :
    Coupled R (guarded loop) (guarded loop') := by
  intro s t hst
  have hrunning : s.machine.running = t.machine.running := h.read (fun _ _ => rfl) hst
  cases ht : t.machine.running with
  | true =>
    rw [exec_guarded_running (hrunning.trans ht), exec_guarded_running ht]
    exact ⟨rfl, hst⟩
  | false =>
    rw [exec_guarded_stopped (hrunning.trans ht), exec_guarded_stopped ht]
    obtain ⟨hresult, hafter⟩ := hloop _ _ (h.entered hst)
    exact ⟨hresult, h.left hafter⟩

/-- The loops go through their frames side by side, and so do those of the runs within them. -/
theorem frames (h : Abreast R D) (hd : Alongside R D devices devices') (fuel : Nat) :
    ∀ (paced paced' : Bool) (limit : Option Int) (done : Nat), Coupled R
      (frames devices paced limit fuel done) (frames devices' paced' limit fuel done) := by
  induction fuel with
  | zero => exact fun _ _ _ _ => .throw _
  | succ fuel ih =>
    intro paced paced' limit done
    unfold Session.frames
    refine .get fun s t hst => ?_
    rw [h.read (f := Machine.running) (fun _ _ => rfl) hst]
    split
    · refine (h.frame (h.guarded (ih true true none 0)) hd).bind fun _ => ?_
      cases limit with
      | none => exact ih _ _ _ _
      | some n =>
        dsimp only
        split
        · exact ih _ _ _ _
        · exact .pure _
    · exact .pure _

theorem run (h : Abreast R D) (hd : Alongside R D devices devices') (fuel : Nat) (limit : Option Int) :
    Coupled R (run devices fuel limit paced) (run devices' fuel limit paced') :=
  h.guarded (h.frames hd fuel paced paced' limit 0)

theorem runFrame (h : Abreast R D) (hd : Alongside R D devices devices') (fuel : Nat) :
    Coupled R (runFrame devices fuel paced) (runFrame devices' fuel paced') :=
  h.frame (h.run hd fuel none) hd

/-! ### Histories -/

theorem act (h : Abreast R D) {o o' : Operation σ} (ho : o.Beside (Alongside R D) o') :
    Coupled R o.act o'.act := by
  cases ho with
  | runFrame hd fuel => exact h.runFrame hd fuel
  | run hd fuel limit => exact h.run hd fuel limit
  | advance seconds seconds' => exact h.advance _ _
  | same hnone =>
    cases o with
    | load program => exact h.load program
    | loadFile name contents => exact h.loadFile name contents
    | reset => exact h.reset
    | syncKeypad => exact h.syncKeypad
    | step => exact h.step.bind fun _ => .pure _
    | runFrame | run => cases hnone
    | stop => exact h.stop
    | keypad change => exact h.onKeypad change
    | advance seconds => exact h.advance _ _
    | equip devices script =>
      exact .alter fun _ _ hst => h.rescript script (h.equip (h.refl devices) hst)

theorem history (h : Abreast R D) {ops ops' : List (Operation σ)}
    (hops : List.Forall₂ (Operation.Beside (Alongside R D)) ops ops') (hst : R s t) :
    s.outcomes ops = t.outcomes ops' ∧ R (s.after ops) (t.after ops') := by
  induction hops generalizing s t with
  | nil => exact ⟨rfl, hst⟩
  | @cons o o' ops ops' ho _ ih =>
    obtain ⟨hresult, hnext⟩ := h.act ho s t hst
    obtain ⟨hresults, hlast⟩ := ih hnext
    refine ⟨?_, hlast⟩
    rw [outcomes, outcomes, hresult, hresults]

end Abreast

end Session

end Chip8
