import Chip8.Proofs.Session.Lockstep

/-!
# What plays no part in a frame

A frame takes no account of the running flag, nor of what happened before it.  It takes account of
the clock, the log and an interrupt that is pending, but only to say when something happens, and not
what.

* `Event.bare?`, `bare`   events and sessions without what is left out of account: always the running
                          flag, and the times as well unless the sessions are `timed`;
* `Alike timed`           sessions that are the same without it, and so are the events since;
* `Coupled.step`, ...     all that a frame does keeps sessions alike;
* `frame_alike`           whole frames do.
-/

namespace Chip8

/-- The event as far as it counts: never for the running flag that a device saw, and for times and
lines of the log only if the sessions are `timed`. -/
def Event.bare? (timed : Bool) : Event → Option Event
  | observed _ => some (observed false)
  | awaited timeout => some (awaited (if timed then timeout else 0))
  | slept seconds => if timed then some (slept seconds) else none
  | printed text => if timed then some (printed text) else none
  | e => some e

namespace Keypad

def bare (timed : Bool) (p : Keypad) : Keypad := { p with interrupted := timed && p.interrupted }

variable {timed : Bool} {p q : Keypad}

theorem bare_true (p : Keypad) : p.bare true = p := by rw [bare, Bool.true_and]

theorem keys_of_bare (h : p.bare timed = q.bare timed) : p.keys = q.keys := by
  show (p.bare timed).keys = (q.bare timed).keys
  rw [h]

/-- The call is granted or refused no matter whether an interrupt is pending. -/
def Plain (f : Keypad → Except Error Keypad) : Prop :=
  ∀ (timed : Bool) (p : Keypad), f (p.bare timed) = (f p).map (bare timed)

theorem plain_set (k : Int) (down : Bool) : Plain fun p => p.set k down := by
  intro timed p
  show (checkKey k >>= _) = Except.map _ (checkKey k >>= _)
  cases checkKey k <;> rfl

theorem plain_setAll (states : List (Nested Bool)) : Plain fun p => p.setAll states := by
  intro timed p
  show setAll (p.bare timed) states = (p.setAll states).map _
  unfold setAll
  dsimp only
  split
  · rfl
  · split <;> rfl

theorem plain_change : ∀ c : Change, Plain fun p => p.change c
  | .press k => plain_set k true
  | .release k => plain_set k false
  | .setAll states => plain_setAll states
  | .clear => fun _ _ => rfl

theorem plain_changeAll (cs : List Change) : Plain fun p => p.changeAll cs := by
  intro timed p
  induction cs generalizing p with
  | nil => rfl
  | cons c cs ih =>
    have hc : (p.bare timed).change c = (p.change c).map (bare timed) := plain_change c timed p
    dsimp only
    rw [changeAll_cons, changeAll_cons, hc]
    cases p.change c with
    | error e => rfl
    | ok q => exact ih q

/-- Keypads that are bare alike are so after a call, or both are refused for the same reason. -/
theorem Plain.cases {f : Keypad → Except Error Keypad} (hf : Plain f)
    (h : p.bare timed = q.bare timed) :
    (∃ e, f p = .error e ∧ f q = .error e) ∨
      ∃ p' q', f p = .ok p' ∧ f q = .ok q' ∧ p'.bare timed = q'.bare timed := by
  have hmap : (f p).map (bare timed) = (f q).map (bare timed) := by rw [← hf, ← hf, h]
  cases hp : f p with
  | error e =>
    rw [hp] at hmap
    cases hq : f q with
    | error e' =>
      rw [hq] at hmap
      cases hmap
      exact .inl ⟨e, rfl, rfl⟩
    | ok q' =>
      rw [hq] at hmap
      cases hmap
  | ok p' =>
    rw [hp] at hmap
    cases hq : f q with
    | error e' =>
      rw [hq] at hmap
      cases hmap
    | ok q' =>
      rw [hq] at hmap
      exact .inr ⟨p', q', rfl, rfl, Except.ok.inj hmap⟩

end Keypad

namespace Session

variable {σ α β : Type} {timed : Bool}

/-- The session without its trace and the running flag, and without clock, logger and pending
interrupt unless it is `timed`. -/
def bare (timed : Bool) (s : Session σ) : Session σ :=
  { s with
    machine := { s.machine with running := false, keypad := s.machine.keypad.bare timed }
    clock := if timed then s.clock else 0
    logger := if timed then s.logger else { name := "" }
    trace := #[] }

/-- Nothing that counts tells the two sessions apart, and nothing that counts has happened in only
one of them since they had the traces `S` and `T`. -/
structure Alike (timed : Bool) (S T : Array Event) (s t : Session σ) : Prop where
  bare : s.bare timed = t.bare timed
  traces : ∃ es fs : List Event, s.trace = S ++ es.toArray ∧ t.trace = T ++ fs.toArray ∧
    es.filterMap (Event.bare? timed) = fs.filterMap (Event.bare? timed)

namespace Alike

variable {S T : Array Event} {s t s' t' : Session σ}

theorem begin (h : s.bare timed = t.bare timed) : Alike timed s.trace t.trace s t where
  bare := h
  traces := SameSince.begin s t

theorem log (h : Alike timed S T s t) {es fs : List Event}
    (hlog : es.filterMap (Event.bare? timed) = fs.filterMap (Event.bare? timed)) :
    Alike timed S T (s.log es) (t.log fs) where
  bare := h.bare
  traces := SameSince.log h.traces hlog

/-- Both sessions changed, and nothing more happened. -/
theorem change (h : Alike timed S T s t) (hbare : s'.bare timed = t'.bare timed)
    (hs : s'.trace = s.trace) (ht : t'.trace = t.trace) : Alike timed S T s' t' where
  bare := hbare
  traces := by
    rw [hs, ht]
    exact h.traces

/-- What is the same in a bare session is the same in both. -/
theorem read (h : Alike timed S T s t) {f : Session σ → α}
    (hf : ∀ s : Session σ, f (s.bare timed) = f s) : f s = f t := by
  rw [← hf s, h.bare, hf t]

theorem state (h : Alike timed S T s t) : s.machine.state = t.machine.state :=
  h.read (f := fun u => u.machine.state) fun _ => rfl

theorem keypad (h : Alike timed S T s t) :
    s.machine.keypad.bare timed = t.machine.keypad.bare timed :=
  congrArg (fun u => u.machine.keypad) h.bare

theorem script (h : Alike timed S T s t) : s.script = t.script :=
  h.read (f := fun u => u.script) fun _ => rfl

theorem clock (h : Alike true S T s t) : s.clock = t.clock :=
  h.read (f := fun u => u.clock) fun _ => rfl

theorem logger (h : Alike true S T s t) : s.logger = t.logger :=
  h.read (f := fun u => u.logger) fun _ => rfl

/-- Timed sessions differ in the running flag and the trace only. -/
theorem eq_of_timed (h : Alike true S T s t) : s = { t with
    machine := { t.machine with running := s.machine.running }, trace := s.trace } := by
  obtain ⟨m, logger, devices, clock, script, trace⟩ := s
  obtain ⟨m', logger', devices', clock', script', trace'⟩ := t
  obtain ⟨settings, rates, legacy, keypad, rng, state, program, frames, instructions, waiting,
    running⟩ := m
  obtain ⟨settings', rates', legacy', keypad', rng', state', program', frames', instructions',
    waiting', running'⟩ := m'
  have hbare := h.bare
  simp only [Session.bare, Keypad.bare_true, if_true, Session.mk.injEq, Machine.mk.injEq] at hbare
  obtain ⟨⟨rfl, rfl, rfl, rfl, rfl, rfl, rfl, rfl, rfl, rfl, -⟩, rfl, rfl, rfl, rfl, -⟩ := hbare
  rfl

variable {p q : Keypad} {timeout timeout' : Float}

/-- A wait counts, and how long it may take does if the sessions are timed. -/
theorem awaited (h : Alike timed S T s t) (htimeout : timed = true → timeout = timeout') :
    Alike timed S T (s.log [.awaited timeout]) (t.log [.awaited timeout']) := by
  refine h.log ?_
  cases timed with
  | false => rfl
  | true => rw [htimeout rfl]

theorem waited (h : Alike timed S T s t) (hpq : p.bare timed = q.bare timed)
    (htimeout : timed = true → timeout = timeout') :
    Alike timed S T (s.waited timeout p) (t.waited timeout' q) := by
  refine (h.awaited htimeout).change ?_ rfl rfl
  cases timed with
  | false =>
    have hafter : p.afterWait = q.afterWait := by
      rw [Keypad.afterWait, Keypad.afterWait, Keypad.keys_of_bare hpq]
    show { s.bare false with
      script := s.script.tail
      machine := { (s.bare false).machine with keypad := p.afterWait } } = _
    rw [h.bare, h.script, hafter]
    rfl
  | true =>
    rw [Keypad.bare_true, Keypad.bare_true] at hpq
    show { s.bare true with
      script := s.script.tail
      machine := { (s.bare true).machine with keypad := p.afterWait.bare true }
      clock := if p.wake = Keypad.Wake.timeout then s.clock + timeout else s.clock } = _
    rw [h.bare, h.script, h.clock, hpq, htimeout rfl]
    rfl

theorem resumed (h : Alike timed S T s t) (hpq : p.bare timed = q.bare timed)
    (htimeout : timed = true → timeout = timeout') :
    Alike timed S T (s.resumed timeout p) (t.resumed timeout' q) := by
  have hkeys : p.keys = q.keys := Keypad.keys_of_bare hpq
  have hlog : Alike timed S T ((s.waited timeout p).log [.synced p.keys])
      ((t.waited timeout' q).log [.synced q.keys]) := (h.waited hpq htimeout).log (by rw [hkeys])
  refine hlog.change ?_ rfl rfl
  let copied (keys : Keys) (u : Session σ) : Session σ :=
    { u with machine := { u.machine with state := { u.machine.state with keys } } }
  show copied p.keys ((s.waited timeout p).bare timed) =
    copied q.keys ((t.waited timeout' q).bare timed)
  rw [(h.waited hpq htimeout).bare, hkeys]

end Alike

namespace Coupled

variable {S T : Array Event}

/-- What an action reads counts. -/
theorem read {f : Session σ → Act σ β} (hf : ∀ s, f s = f (s.bare timed))
    (h : ∀ s, Coupled (Alike timed S T) (f s) (f s)) :
    Coupled (Alike timed S T) (MonadState.get >>= f) (MonadState.get >>= f) := by
  refine get fun s t hst => ?_
  rw [hf s, hst.bare, ← hf t]
  exact h t

/-- What an action changes depends on nothing but what counts. -/
theorem change {f : Session σ → Session σ}
    (hf : ∀ s, (f s).bare timed = (f (s.bare timed)).bare timed)
    (htrace : ∀ s, (f s).trace = s.trace) :
    Coupled (Alike timed S T) (modify f : Act σ) (modify f) := by
  refine alter fun s t h => h.change ?_ (htrace s) (htrace t)
  rw [hf s, h.bare, ← hf t]

theorem onMachine {f : Machine → Machine}
    (hf : ∀ s : Session σ, ({ s with machine := f s.machine } : Session σ).bare timed =
      ({ s.bare timed with machine := f (s.bare timed).machine } : Session σ).bare timed) :
    Coupled (Alike timed S T) (onMachine f : Act σ) (onMachine f) :=
  change hf fun _ => rfl

theorem record (e : Event) : Coupled (Alike timed S T) (record e : Act σ) (record e) := by
  intro s t h
  rw [exec_record, exec_record]
  exact ⟨rfl, h.log rfl⟩

theorem observe : Coupled (Alike timed S T)
    (do Session.record (.observed (← MonadState.get).machine.running) : Act σ)
    (do Session.record (.observed (← MonadState.get).machine.running)) := by
  intro s t h
  rw [exec_get_bind, exec_get_bind, exec_record, exec_record]
  exact ⟨rfl, h.log rfl⟩

/-- Lines of the log count only if they are the same. -/
theorem print {entries entries' : List Entry} (h : timed = true → entries = entries') :
    Coupled (Alike timed S T) (print entries : Act σ) (print entries') := by
  intro s t hst
  rw [exec_print, exec_print]
  refine ⟨rfl, hst.log ?_⟩
  cases timed with
  | false =>
    have hnone (lines : List String) :
        (lines.map Event.printed).filterMap (Event.bare? false) = [] := by
      simp [Event.bare?]
    rw [hnone, hnone]
  | true => rw [h rfl, hst.logger, hst.clock]

theorem advance {d d' : Float} (h : timed = true → d = d') :
    Coupled (Alike timed S T) (advance d : Act σ) (advance d') := by
  refine alter fun s t hst => hst.change ?_ rfl rfl
  cases timed with
  | false => exact hst.bare
  | true =>
    show { s.bare true with clock := s.clock + d } = { t.bare true with clock := t.clock + d' }
    rw [h rfl, hst.bare, hst.clock]

theorem stop : Coupled (Alike timed S T) (stop : Act σ) stop := by
  refine bind ?_ fun _ => record _
  exact onMachine fun _ => by cases timed <;> rfl

theorem onKeypad {f : Keypad → Except Keypad.Error Keypad} (hf : Keypad.Plain f) :
    Coupled (Alike timed S T) (onKeypad f : Act σ) (onKeypad f) := by
  intro s t h
  obtain ⟨e, hs, ht⟩ | ⟨p, q, hs, ht, hpq⟩ := hf.cases h.keypad
  · rw [exec_onKeypad_error hs, exec_onKeypad_error ht]
    exact ⟨rfl, h⟩
  · rw [exec_onKeypad_ok hs, exec_onKeypad_ok ht]
    refine ⟨rfl, h.change ?_ rfl rfl⟩
    show { s.bare timed with machine := { (s.bare timed).machine with keypad := p.bare timed } } = _
    rw [h.bare, hpq]
    rfl

theorem syncKeypad : Coupled (Alike timed S T) (syncKeypad : Act σ) syncKeypad := by
  refine read (fun _ => rfl) fun s => (record _).bind fun _ => ?_
  exact onMachine fun _ => by cases timed <;> rfl

theorem step : Coupled (Alike timed S T) (step : Act σ Bool) step := by
  intro s t h
  cases ht : t.machine.state.step with
  | ok r =>
    obtain ⟨a, w⟩ := r
    rw [exec_step_ok (h.state ▸ ht), exec_step_ok ht, h.state]
    have hlog : Alike timed S T (s.log [.executed w]) (t.log [.executed w]) := h.log rfl
    refine ⟨rfl, hlog.change ?_ rfl rfl⟩
    show { s.bare timed with machine := (s.bare timed).machine.stepped a w } = _
    rw [h.bare]
    rfl
  | error f =>
    have hfault : Coupled (Alike timed S T)
        (do Session.record (.faulted f)
            Session.onMachine fun m => { m with running := false }
            Session.print (Report.fault f (some t.machine.state))
            MonadExcept.throw (.fault f) : Act σ Bool)
        (do Session.record (.faulted f)
            Session.onMachine fun m => { m with running := false }
            Session.print (Report.fault f (some t.machine.state))
            MonadExcept.throw (.fault f)) := by
      refine (record _).bind fun _ => bind ?_ fun _ => (print fun _ => rfl).bind fun _ => throw _
      exact onMachine fun _ => by cases timed <;> rfl
    have hs : s.machine.step = .error f := by rw [Machine.step_eq, h.state, ht]; rfl
    have ht : t.machine.step = .error f := by rw [Machine.step_eq, ht]; rfl
    rw [Session.step, exec_get_bind, exec_get_bind]
    simp only [hs, ht, h.state]
    exact hfault s t h

variable {p q : Pace}

theorem changeKeys (cs : List Keypad.Change) :
    Coupled (Alike timed S T) (changeKeys cs : Act σ) (changeKeys cs) := by
  induction cs with
  | nil => exact pure _
  | cons c cs ih => exact (onKeypad (Keypad.plain_change c)).bind fun _ => ih

theorem followScript : Coupled (Alike timed S T) (followScript : Act σ) followScript := by
  refine get fun s t hst => ?_
  rw [hst.script]
  cases t.script with
  | nil => exact pure _
  | cons cs rest =>
    refine bind ?_ fun _ => changeKeys cs
    exact alter fun u v huv => huv.change
      (congrArg (fun w : Session σ => { w with script := rest }) huv.bare) rfl rfl

theorem awaitKey (hpq : timed = true → p = q) :
    Coupled (Alike timed S T) (awaitKey p : Act σ Bool) (awaitKey q) := by
  intro s t h
  have htimeout : timed = true → p.timeout s.clock = q.timeout t.clock := by
    intro htimed
    subst htimed
    rw [hpq rfl, h.clock]
  have hawaited := h.awaited htimeout
  have hscript : (s.script.headD [] : List Keypad.Change) = t.script.headD [] := by rw [h.script]
  obtain ⟨e, hs, ht⟩ | ⟨k, l, hs, ht, hkl⟩ :=
    (Keypad.plain_changeAll (s.script.headD [])).cases h.keypad
  · rw [hscript] at ht
    obtain ⟨k, hs⟩ := exec_followScript_error (s := s.log [.awaited (p.timeout s.clock)]) hs
    obtain ⟨l, ht⟩ := exec_followScript_error (s := t.log [.awaited (q.timeout t.clock)]) ht
    have hrest := (followScript _ _ hawaited).2
    rw [hs, ht] at hrest
    rw [exec_awaitKey_error hs, exec_awaitKey_error ht]
    exact ⟨rfl, hrest⟩
  · rw [hscript] at ht
    rw [exec_awaitKey_ok hs, exec_awaitKey_ok ht, Keypad.keys_of_bare hkl]
    cases l.keys.any with
    | true => exact ⟨rfl, h.resumed hkl htimeout⟩
    | false => exact ⟨rfl, h.waited hkl htimeout⟩

/-- Sleeping counts only in timed sessions, and there it is the same. -/
theorem sleepUntil (hpq : timed = true → p = q) {moment moment' : Float}
    (hmoment : timed = true → moment = moment') :
    Coupled (Alike timed S T) (p.sleepUntil moment : Act σ) (q.sleepUntil moment') := by
  intro s t h
  cases timed with
  | false =>
    have hnone (sleeps : List Float) :
        (sleeps.map Event.slept).filterMap (Event.bare? false) = [] := by
      simp [Event.bare?]
    obtain ⟨sleeps, clock, hs⟩ := exec_sleepUntil p moment s
    obtain ⟨sleeps', clock', ht⟩ := exec_sleepUntil q moment' t
    rw [hs, ht]
    refine ⟨rfl, (h.log ?_).change h.bare rfl rfl⟩
    rw [hnone, hnone]
  | true =>
    rw [hpq rfl, hmoment rfl, Pace.sleepUntil]
    cases q.paced with
    | false => exact pure _ s t h
    | true =>
      have hsleep (d : Float) : Coupled (Alike true S T)
          (if 0 < d then do Session.record (.slept d); Session.advance d else Pure.pure () : Act σ)
          (if 0 < d then do Session.record (.slept d); Session.advance d else Pure.pure ()) := by
        split
        · exact (record _).bind fun _ => advance fun _ => rfl
        · exact pure _
      have hx := hsleep (moment' - t.clock) s t h
      rw [if_pos rfl, Session.sleepUntil, exec_get_bind, exec_get_bind, h.clock]
      exact hx

theorem report {logger logger' : Logger} {entries entries' : List Entry}
    (h : timed = true → logger = logger' ∧ entries = entries') :
    Coupled (Alike timed S T) (do modify fun s => { s with logger }; Session.print entries : Act σ)
      (do modify fun s => { s with logger := logger' }; Session.print entries') := by
  refine bind (alter fun s t hst => hst.change ?_ rfl rfl) fun _ => print fun htimed => (h htimed).2
  cases timed with
  | false => exact hst.bare
  | true =>
    show { s.bare true with logger } = { t.bare true with logger := logger' }
    rw [(h rfl).1, hst.bare]

/-- The statistics count only in timed sessions; whether they fail does not depend on the time. -/
theorem countFrame : Coupled (Alike timed S T) (countFrame : Act σ) countFrame := by
  refine bind (onMachine fun _ => by cases timed <;> rfl) fun _ => get fun s t h => ?_
  have hcount : s.machine.frameCount = t.machine.frameCount :=
    h.read (f := fun u => u.machine.frameCount) fun _ => rfl
  have hinterval : s.machine.settings = t.machine.settings :=
    h.read (f := fun u => u.machine.settings) fun _ => rfl
  have hstats : s.machine.stats = t.machine.stats :=
    h.read (f := fun u => u.machine.stats) fun _ => rfl
  have htime (htimed : timed = true) : s.clock = t.clock ∧ s.logger = t.logger := by
    subst htimed
    exact ⟨h.clock, h.logger⟩
  dsimp only
  rw [hcount, hinterval, hstats]
  obtain ⟨e, hs, ht⟩ | ⟨x, y, hs, ht⟩ := Logger.frameStats_cases s.logger t.logger s.clock t.clock
    t.machine.frameCount t.machine.stats t.machine.settings.logInterval
  · rw [hs, ht]
    exact throw _
  · rw [hs, ht]
    refine report fun htimed => ?_
    rw [(htime htimed).1, (htime htimed).2, ht] at hs
    cases hs
    exact ⟨rfl, rfl⟩

end Coupled

/-- The paces may differ if the sessions are not timed. -/
theorem lockstep_alike (timed : Bool) (S T : Array Event) :
    Lockstep (Alike timed S T : Session σ → Session σ → Prop) Eq fun p q => timed = true → p = q where
  waiting h := h.read (f := fun u => u.machine.waiting) fun _ => rfl
  rates h := h.read (f := fun u => u.machine.rates) fun _ => rfl
  display h := by rw [h.state]
  keys h := Keypad.keys_of_bare h.keypad
  devices h := h.read (f := fun u => u.devices) fun _ => rfl
  equip {s t d d'} hd h := by
    subst hd
    exact h.change (congrArg (fun u : Session σ => { u with devices := d }) h.bare) rfl rfl
  step := .step
  awaitKey := .awaitKey
  sleep h _ := .sleepUntil h fun htimed => by rw [h htimed]
  rest h := .sleepUntil h fun htimed => by rw [h htimed]
  call _ := .record _
  syncKeypad := .syncKeypad
  tick := (Coupled.onMachine fun _ => by cases timed <;> rfl).bind fun _ => .record _
  countFrame := .countFrame

/-- **What plays no part in a frame**: the running flag, what happened before, and what a run would
be, as long as the devices do not ask for one.  The clock, the log and a pending interrupt play no
part either, except for the times and the log. -/
theorem frame_alike {devices : Peripherals σ} (hq : devices.Quiet) (run run' : Act σ)
    {paced paced' : Bool} (hpaced : timed = true → paced = paced') (S T : Array Event) :
    Coupled (Alike timed S T) (frame devices run paced) (frame devices run' paced') := by
  have hlock := lockstep_alike (σ := σ) timed S T
  have hperform (q q' : Request) (h : q.Same q') :
      Coupled (Alike timed S T) (perform run q) (perform run' q') := by
    obtain ⟨rfl, h⟩ := h
    cases q with
    | run | reset => cases h
    | stop => exact .stop
    | advance seconds => exact .advance fun _ => rfl
    | observe => exact .observe
    | keypad c => exact .onKeypad (Keypad.plain_change c)
  have hsound : Coupled (Alike timed S T) (soundTone devices run) (soundTone devices run') :=
    hlock.soundTone hq.match_same.sounds hperform fun s t h => by rw [h.state]
  refine hlock.frame hq.match_same.inStep hperform hsound fun h _ _ _ hs ht htimed => ?_
  subst htimed
  rw [hpaced rfl, h.clock, ht] at hs
  exact (Except.ok.inj hs).symm

end Session

end Chip8
