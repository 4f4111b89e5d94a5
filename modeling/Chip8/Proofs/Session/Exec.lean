import Chip8.Session.Run

/-!
# What an action of a session comes to

An action takes a session to a result and a session.  `exec` runs it, and each of the actions that a
frame is made of gets its equation here: the small ones, a step, a wait for a key, a sleep.
`exec_bind_ok` and `exec_bind_error` go on from a first action whose outcome is known;
`exec_bind_cases` takes two actions apart.
-/

namespace Chip8

namespace Keypad

/-- The keypad after changes one after the other, if none of them is refused. -/
def changeAll (p : Keypad) (changes : List Change) : Except Error Keypad := changes.foldlM change p

/-- The keypad after the next item of a script. -/
def scripted (p : Keypad) (script : List (List Change)) : Except Error Keypad :=
  p.changeAll (script.headD [])

theorem changeAll_cons (p : Keypad) (c : Change) (cs : List Change) :
    p.changeAll (c :: cs) = p.change c >>= fun q => q.changeAll cs := List.foldlM_cons

end Keypad

namespace Machine

/-- The machine after a step of its state by the word `w`. -/
def stepped (m : Machine) (t : State) (w : UInt16) : Machine :=
  { m with
    state := t
    waiting := m.state.waits t w
    instructionCount := m.instructionCount + if m.state.waits t w then 0 else 1 }

theorem step_eq (m : Machine) :
    m.step = m.state.step.map fun r => (m.stepped r.1 r.2, r.2) := by
  rw [step]
  cases m.state.step with
  | error f => rfl
  | ok r =>
    obtain ⟨t, w⟩ := r
    show (if m.state.waits t w then _ else _) = Except.ok (m.stepped t w, w)
    cases hw : m.state.waits t w <;> (rw [stepped, hw]; rfl)

end Machine

namespace Session

variable {σ α β : Type}

/-- The result of an action in a session, and the session after it. -/
def exec (a : Act σ α) (s : Session σ) : Except Failure α × Session σ := a.run.run s

theorem exec_ext {a b : Act σ α} (h : ∀ s, exec a s = exec b s) : a = b := funext h

theorem exec_eq_of_isOk {a : Act σ} {s : Session σ} (h : (exec a s).1.isOk = true) :
    exec a s = (.ok (), (exec a s).2) := by
  generalize exec a s = x at h ⊢
  obtain ⟨r, t⟩ := x
  cases r with
  | error e => cases h
  | ok r => rfl

/-- The session with more events behind it. -/
def log (s : Session σ) (es : List Event) : Session σ :=
  { s with trace := s.trace ++ es.toArray }

theorem log_nil (s : Session σ) : s.log [] = s := by
  simp [log]

theorem log_log (s : Session σ) (es fs : List Event) : (s.log es).log fs = s.log (es ++ fs) := by
  simp [log]

/-! ### One after the other -/

theorem exec_pure (x : α) (s : Session σ) : exec (pure x) s = (.ok x, s) := rfl

theorem exec_throw (e : Failure) (s : Session σ) : exec (throw e : Act σ α) s = (.error e, s) := rfl

theorem exec_bind (a : Act σ α) (f : α → Act σ β) (s : Session σ) : exec (a >>= f) s =
    match exec a s with
    | (.ok x, t) => exec (f x) t
    | (.error e, t) => (.error e, t) := by
  show StateT.run (StateT.bind a.run (ExceptT.bindCont f)) s = _
  rw [exec]
  show (match StateT.run (ExceptT.run a) s with | (x, t) => StateT.run (ExceptT.bindCont f x) t) = _
  cases StateT.run (ExceptT.run a) s with
  | mk x t => cases x <;> rfl

theorem exec_bind_ok {a : Act σ α} {s t : Session σ} {x : α} (h : exec a s = (.ok x, t))
    (f : α → Act σ β) : exec (a >>= f) s = exec (f x) t := by
  rw [exec_bind, h]

theorem exec_bind_error {a : Act σ α} {s t : Session σ} {e : Failure}
    (h : exec a s = (.error e, t)) (f : α → Act σ β) : exec (a >>= f) s = (.error e, t) := by
  rw [exec_bind, h]

theorem exec_bind_cases {a : Act σ α} {f : α → Act σ β} {s u : Session σ} {r : Except Failure β}
    (h : exec (a >>= f) s = (r, u)) :
    (∃ x t, exec a s = (.ok x, t) ∧ exec (f x) t = (r, u)) ∨
    ∃ e, exec a s = (.error e, u) ∧ r = .error e := by
  cases ha : exec a s with
  | mk x t =>
    cases x with
    | ok x => exact .inl ⟨x, t, rfl, (exec_bind_ok ha f).symm.trans h⟩
    | error e =>
      rw [exec_bind_error ha f] at h
      cases h
      exact .inr ⟨e, rfl, rfl⟩

/-! ### The small actions -/

theorem exec_get_bind (f : Session σ → Act σ β) (s : Session σ) :
    exec (get >>= f) s = exec (f s) s := rfl

theorem exec_modify (f : Session σ → Session σ) (s : Session σ) :
    exec (modify f : Act σ) s = (.ok (), f s) := rfl

theorem exec_record (e : Event) (s : Session σ) : exec (record e) s = (.ok (), s.log [e]) := by
  rw [record, exec_modify, log, Array.push_eq_append]

theorem exec_onMachine (f : Machine → Machine) (s : Session σ) :
    exec (onMachine f) s = (.ok (), { s with machine := f s.machine }) := rfl

theorem exec_advance (d : Float) (s : Session σ) :
    exec (advance d) s = (.ok (), { s with clock := s.clock + d }) := rfl

theorem exec_print (entries : List Entry) (s : Session σ) : exec (print entries) s =
    (.ok (), s.log ((s.logger.lines s.clock entries).map .printed)) := rfl

theorem exec_syncKeypad (s : Session σ) : exec syncKeypad s =
    (.ok (), { s.log [.synced s.machine.keypad.keys] with machine := s.machine.syncKeypad }) := by
  rw [syncKeypad, exec_get_bind, exec_bind_ok (exec_record _ s), exec_onMachine]
  rfl

theorem exec_stop (s : Session σ) :
    exec stop s = (.ok (), { s with machine := s.machine.stop }.log [.stopped]) := by
  rw [stop, exec_bind_ok (exec_onMachine Machine.stop s), exec_record]

theorem exec_tick (s : Session σ) :
    exec tick s = (.ok (), { s with machine := s.machine.tick }.log [.ticked]) := by
  rw [tick, exec_bind_ok (exec_onMachine Machine.tick s), exec_record]

theorem exec_onKeypad_ok {f : Keypad → Except Keypad.Error Keypad} {s : Session σ} {p : Keypad}
    (h : f s.machine.keypad = .ok p) : exec (onKeypad f) s =
      (.ok (), { s with machine := { s.machine with keypad := p } }) := by
  rw [onKeypad, exec_get_bind]
  simp only [h]
  rfl

theorem exec_onKeypad_error {f : Keypad → Except Keypad.Error Keypad} {s : Session σ}
    {e : Keypad.Error} (h : f s.machine.keypad = .error e) :
    exec (onKeypad f) s = (.error (.keypad e), s) := by
  rw [onKeypad, exec_get_bind]
  simp only [h]
  rfl

/-- The devices are called, and then take their turns. -/
theorem exec_call (run : Act σ) (event : Event) (callback : Callback σ) (s : Session σ) :
    exec (call run event callback) s =
      exec (performAll run (callback s.machine.keypad.keys s.devices).2)
        { s.log [event] with devices := (callback s.machine.keypad.keys s.devices).1 } := by
  rw [call, exec_bind_ok (exec_record event s), exec_get_bind]
  exact exec_bind_ok (exec_modify _ _) _

/-! ### A step -/

theorem exec_step_ok {s : Session σ} {t : State} {w : UInt16}
    (h : s.machine.state.step = .ok (t, w)) : exec step s =
      (.ok !(s.machine.state.waits t w),
        { s.log [.executed w] with machine := s.machine.stepped t w }) := by
  have hm : s.machine.step = .ok (s.machine.stepped t w, w) := by rw [Machine.step_eq, h]; rfl
  rw [step, exec_get_bind]
  simp only [hm]
  rw [exec_bind_ok (exec_record _ s)]
  rfl

theorem exec_step_error {s : Session σ} {f : Fault} (h : s.machine.state.step = .error f) :
    ∃ lines : List String, exec step s = (.error (.fault f),
      { s.log (.faulted f :: lines.map .printed) with
        machine := { s.machine with running := false } }) := by
  have hm : s.machine.step = .error f := by rw [Machine.step_eq, h]; rfl
  refine ⟨s.logger.lines s.clock (Report.fault f (some s.machine.state)), ?_⟩
  rw [step, exec_get_bind]
  simp only [hm]
  rw [exec_bind_ok (exec_record _ s), exec_bind_ok (exec_onMachine _ _),
    exec_bind_ok (exec_print _ _), exec_throw]
  exact congrArg (fun u : Session σ => (_, { u with machine := { s.machine with running := false } }))
    (log_log s [.faulted f] _)

/-! ### A wait for a key -/

/-- The live keypad at the next wait. -/
def scripted (s : Session σ) : Except Keypad.Error Keypad := s.machine.keypad.scripted s.script

theorem exec_changeKeys_ok {cs : List Keypad.Change} {s : Session σ} {p : Keypad}
    (h : s.machine.keypad.changeAll cs = .ok p) : exec (changeKeys cs) s =
      (.ok (), { s with machine := { s.machine with keypad := p } }) := by
  induction cs generalizing s with
  | nil =>
    cases h
    rfl
  | cons c cs ih =>
    rw [Keypad.changeAll_cons] at h
    rw [changeKeys]
    cases hc : s.machine.keypad.change c with
    | error e =>
      rw [hc] at h
      cases h
    | ok q =>
      rw [hc] at h
      rw [exec_bind_ok (exec_onKeypad_ok hc)]
      exact ih (s := { s with machine := { s.machine with keypad := q } }) h

/-- The changes before the one that is refused stay done. -/
theorem exec_changeKeys_error {cs : List Keypad.Change} {s : Session σ} {e : Keypad.Error}
    (h : s.machine.keypad.changeAll cs = .error e) : ∃ p, exec (changeKeys cs) s =
      (.error (.keypad e), { s with machine := { s.machine with keypad := p } }) := by
  induction cs generalizing s with
  | nil => cases h
  | cons c cs ih =>
    rw [Keypad.changeAll_cons] at h
    rw [changeKeys]
    cases hc : s.machine.keypad.change c with
    | error e' =>
      rw [hc] at h
      cases h
      exact ⟨s.machine.keypad, exec_bind_error (exec_onKeypad_error hc) _⟩
    | ok q =>
      rw [hc] at h
      rw [exec_bind_ok (exec_onKeypad_ok hc)]
      exact ih (s := { s with machine := { s.machine with keypad := q } }) h

theorem exec_followScript (s : Session σ) : exec followScript s =
    exec (changeKeys (s.script.headD [])) { s with script := s.script.tail } := by
  obtain ⟨m, logger, devices, clock, script, trace⟩ := s
  cases script <;> rfl

theorem exec_followScript_ok {s : Session σ} {p : Keypad} (h : s.scripted = .ok p) :
    exec followScript s =
      (.ok (), { s with script := s.script.tail, machine := { s.machine with keypad := p } }) := by
  rw [exec_followScript]
  exact exec_changeKeys_ok (s := { s with script := s.script.tail }) h

theorem exec_followScript_error {s : Session σ} {e : Keypad.Error} (h : s.scripted = .error e) :
    ∃ p, exec followScript s = (.error (.keypad e),
      { s with script := s.script.tail, machine := { s.machine with keypad := p } }) := by
  rw [exec_followScript]
  exact exec_changeKeys_error (s := { s with script := s.script.tail }) h

/-- The session after a wait that the keypad `p` ended. -/
def waited (s : Session σ) (timeout : Float) (p : Keypad) : Session σ :=
  { s.log [.awaited timeout] with
    script := s.script.tail
    machine := { s.machine with keypad := p.afterWait }
    clock := if p.wake = .timeout then s.clock + timeout else s.clock }

theorem exec_waitForPress_ok {s : Session σ} {p : Keypad} (h : s.scripted = .ok p)
    (timeout : Float) :
    exec (waitForPress timeout) s = (.ok p.keys.any, s.waited timeout p) := by
  have hany : p.wake ≠ .key → p.keys.any = false := by
    rw [Ne, Keypad.wake_eq_key_iff, Bool.not_eq_true]
    exact id
  rw [waitForPress, exec_bind_ok (exec_record _ s),
    exec_bind_ok (exec_followScript_ok (s := s.log [.awaited timeout]) h), exec_get_bind]
  dsimp only
  rw [exec_bind_ok (exec_onMachine _ _), waited]
  cases hw : p.wake with
  | key =>
    rw [Keypad.wake_eq_key_iff.mp hw]
    rfl
  | interrupt | timeout =>
    rw [hany (by rw [hw]; decide)]
    rfl

/-- A wait fails as its item of the script does. -/
theorem exec_waitForPress_error {s t : Session σ} {e : Failure} {timeout : Float}
    (h : exec followScript (s.log [.awaited timeout]) = (.error e, t)) :
    exec (waitForPress timeout) s = (.error e, t) := by
  rw [waitForPress, exec_bind_ok (exec_record _ s), exec_bind_error h]

/-- The keys that ended a wait, copied into the state. -/
def resumed (s : Session σ) (timeout : Float) (p : Keypad) : Session σ :=
  { (s.waited timeout p).log [.synced p.keys] with
    machine :=
      { s.machine with
        keypad := p.afterWait
        state := { s.machine.state with keys := p.keys } } }

theorem exec_awaitKey_ok {s : Session σ} {q : Keypad} (h : s.scripted = .ok q) (p : Pace) :
    exec (awaitKey p) s =
      if q.keys.any then (.ok true, s.resumed (p.timeout s.clock) q)
      else (.ok false, s.waited (p.timeout s.clock) q) := by
  rw [awaitKey, exec_get_bind, exec_bind_ok (exec_waitForPress_ok h _)]
  cases q.keys.any with
  | true =>
    simp only [if_true]
    rw [exec_bind_ok (exec_syncKeypad _)]
    rfl
  | false => rfl

theorem exec_awaitKey_error {s t : Session σ} {e : Failure} {p : Pace}
    (h : exec followScript (s.log [.awaited (p.timeout s.clock)]) = (.error e, t)) :
    exec (awaitKey p) s = (.error e, t) := by
  rw [awaitKey, exec_get_bind, exec_bind_error (exec_waitForPress_error h)]

/-! ### Sleeping -/

/-- Sleeping takes nothing but time. -/
theorem exec_sleepUntil (p : Pace) (moment : Float) (s : Session σ) :
    ∃ (sleeps : List Float) (clock : Float), exec (p.sleepUntil moment : Act σ) s =
      (.ok (), { s.log (sleeps.map .slept) with clock }) := by
  rw [Pace.sleepUntil]
  cases p.paced with
  | false => exact ⟨[], s.clock, by simp [log, exec_pure]⟩
  | true =>
    rw [if_pos rfl, Session.sleepUntil, exec_get_bind]
    by_cases h : 0 < moment - s.clock
    · refine ⟨[moment - s.clock], s.clock + (moment - s.clock), ?_⟩
      rw [if_pos h, exec_bind_ok (exec_record _ s), exec_advance]
      rfl
    · refine ⟨[], s.clock, ?_⟩
      rw [if_neg h]
      simp [log, exec_pure]

end Session

end Chip8
