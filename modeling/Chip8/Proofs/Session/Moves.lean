import Chip8.Proofs.Session.Devices
import Chip8.Proofs.Session.Exclusion

/-!
# All that an action can do

Whatever a session does is a sequence of small changes, and they are listed here once.

* `Move`     the changes: the machine makes a step, copies the keypad, ticks, is stopped, ...
* `Raises`   the reasons for a failure that is no fault of an instruction;
* `Goes`     a session goes to another one by moves, and comes to a result;
* `Does`     an action that goes on in this way from every session.

All three are about the devices and the requests that these may make, `asks`.  Every action does so:
`Does.frame` and `Does.run` are the ones that matter.  A statement about all frames or all runs is
then proved by induction on `Goes`, with one case for each kind of change.
-/

namespace Chip8

/-- The event is about neither the machine nor its devices. -/
def Event.isAside : Event → Bool
  | awaited _ | slept _ | printed _ | observed _ => true
  | _ => false

/-- Statistics fail only if the interval between them is no number. -/
theorem Logger.interval_of_frameStats {l : Logger} {now : Float} {frame : Int} {stats : Fields}
    {interval : Value} {e : Misuse} (h : l.frameStats now frame stats interval = .error e) :
    interval.int? = none := by
  rw [frameStats] at h
  split at h
  · assumption
  · split at h <;> cases h

namespace Session

variable {σ α β : Type} {devices : Peripherals σ} {asks : Request → Prop}

inductive Move (devices : Peripherals σ) (asks : Request → Prop) : Session σ → Session σ → Prop
  /-- Something besides the machine and its devices, such as the clock or the log. -/
  | aside {s t : Session σ} (es : List Event) (he : ∀ e ∈ es, e.isAside = true)
      (htrace : t.trace = s.trace ++ es.toArray) (hmachine : t.machine = s.machine)
      (hdevices : t.devices = s.devices) (hscript : t.script <:+ s.script) :
      Move devices asks s t
  /-- The devices are called, and have yet to take their turns. -/
  | call {e : Event} {callback : Callback σ} (h : devices.callback? e = some callback)
      (s : Session σ) : Move devices asks s
        { s.log [e] with devices := (callback s.machine.keypad.keys s.devices).1 }
  | keypad (s : Session σ) (p : Keypad) :
      Move devices asks s { s with machine := { s.machine with keypad := p } }
  | step {s : Session σ} {a : State} {w : UInt16} (h : s.machine.state.step = .ok (a, w)) :
      Move devices asks s { s.log [.executed w] with machine := s.machine.stepped a w }
  | sync (s : Session σ) : Move devices asks s
      { s.log [.synced s.machine.keypad.keys] with machine := s.machine.syncKeypad }
  | tick (s : Session σ) : Move devices asks s ({ s with machine := s.machine.tick }.log [.ticked])
  | count (s : Session σ) : Move devices asks s
      { s with machine := { s.machine with frameCount := s.machine.frameCount + 1 } }
  | stop (h : asks .stop) (s : Session σ) :
      Move devices asks s ({ s with machine := s.machine.stop }.log [.stopped])
  | reset (h : asks .reset) {s : Session σ} {m : Machine} (hs : s.machine.running = false)
      (hm : s.machine.reset = .ok m) : Move devices asks s ({ s with machine := m }.log [.wasReset])
  | enter (h : asks .run) {s : Session σ} (hs : s.machine.running = false) : Move devices asks s s.entered
  | leave (h : asks .run) (s : Session σ) : Move devices asks s s.left

inductive Raises (asks : Request → Prop) (s : Session σ) : Failure → Prop
  /-- A device asked for a change that the keypad refuses. -/
  | refused {q : Request} {e : Keypad.Error} (hq : asks q)
      (h : q.onKeypad s.machine.keypad = .error e) : Raises asks s (.keypad e)
  | noTime {paced : Bool} {e : Number.Overflow}
      (h : Pace.ofRates s.machine.rates paced s.clock = .error e) : Raises asks s (.overflow e)
  | noInterval {e : Misuse}
      (h : s.machine.settings.logInterval.int? = none) : Raises asks s (.misuse e)
  /-- A device asked for a run or a reset, which may fail in ways of their own. -/
  | asked {e : Failure} (h : asks .run ∨ asks .reset) : Raises asks s e

inductive Goes (devices : Peripherals σ) (asks : Request → Prop) : Session σ → Except Failure Unit → Session σ → Prop
  | done (s : Session σ) : Goes devices asks s (.ok ()) s
  | move {s t u : Session σ} {r : Except Failure Unit} (h : Move devices asks s t)
      (rest : Goes devices asks t r u) : Goes devices asks s r u
  | fault {s : Session σ} {f : Fault} (h : s.machine.state.step = .error f) (lines : List String) :
      Goes devices asks s (.error (.fault f)) { s.log (.faulted f :: lines.map .printed) with
        machine := { s.machine with running := false } }
  /-- The script has a change that the keypad refuses; what was changed before stays. -/
  | script {s : Session σ} {e : Keypad.Error} (h : s.scripted = .error e) (p : Keypad) :
      Goes devices asks s (.error (.keypad e))
        { s with script := s.script.tail, machine := { s.machine with keypad := p } }
  | raise {s : Session σ} {e : Failure} (h : Raises asks s e) : Goes devices asks s (.error e) s
  | leave (h : asks .run) {s t : Session σ} {e : Failure} (hs : Goes devices asks s (.error e) t) :
      Goes devices asks s (.error e) t.left

theorem Goes.ofMove {s t : Session σ} (h : Move devices asks s t) : Goes devices asks s (.ok ()) t :=
  .move h (.done t)

theorem Goes.trans {s t u : Session σ} {r : Except Failure Unit} (h : Goes devices asks s (.ok ()) t)
    (h' : Goes devices asks t r u) : Goes devices asks s r u := by
  generalize hok : Except.ok () = r₀ at h
  induction h with
  | done s => exact h'
  | move hm _ ih => exact .move hm (ih h' hok)
  | _ => cases hok

/-- The action goes by moves, wherever it begins. -/
def Does (devices : Peripherals σ) (asks : Request → Prop) (a : Act σ α) : Prop :=
  ∀ s, Goes devices asks s ((exec a s).1.map fun _ => ()) (exec a s).2

namespace Does

theorem goes {a : Act σ} (h : Does devices asks a) {s t : Session σ} {r : Except Failure Unit}
    (hx : exec a s = (r, t)) : Goes devices asks s r t := by
  have hs := h s
  rw [hx] at hs
  cases r with
  | ok x => exact hs
  | error e => exact hs

/-! ### One after the other -/

theorem pure (x : α) : Does devices asks (pure x : Act σ α) := fun s => .done s

theorem bind {a : Act σ α} {f : α → Act σ β} (ha : Does devices asks a) (hf : ∀ x, Does devices asks (f x)) :
    Does devices asks (a >>= f) := by
  intro s
  have h := ha s
  rw [exec_bind]
  cases hx : exec a s with
  | mk r t =>
    rw [hx] at h
    cases r with
    | ok x => exact Goes.trans h (hf x t)
    | error e => exact h

theorem get {f : Session σ → Act σ β} (hf : ∀ s, Does devices asks (f s)) :
    Does devices asks (MonadState.get >>= f) := fun s => hf s s

theorem change {f : Session σ → Session σ} (h : ∀ s, Move devices asks s (f s)) :
    Does devices asks (modify f : Act σ) := fun s => .ofMove (h s)

theorem raise {e : Failure} (h : ∀ s : Session σ, Raises asks s e) :
    Does devices asks (throw e : Act σ α) := fun s => .raise (h s)

/-! ### The small actions -/

theorem record {e : Event} (he : e.isAside = true) : Does devices asks (record e : Act σ) := by
  intro s
  rw [exec_record]
  refine .ofMove (.aside [e] ?_ rfl rfl rfl (List.suffix_refl _))
  intro e' h
  rw [List.mem_singleton.mp h]
  exact he

theorem print (entries : List Entry) : Does devices asks (print entries : Act σ) := by
  intro s
  rw [exec_print]
  refine .ofMove (.aside _ ?_ rfl rfl rfl (List.suffix_refl _))
  intro e h
  obtain ⟨line, -, rfl⟩ := List.mem_map.mp h
  rfl

theorem advance (d : Float) : Does devices asks (advance d : Act σ) :=
  change fun _ => .aside [] nofun Array.append_empty.symm rfl rfl (List.suffix_refl _)

theorem syncKeypad : Does devices asks (syncKeypad : Act σ) := by
  intro s
  rw [exec_syncKeypad]
  exact .ofMove (.sync s)

theorem stop (h : asks .stop) : Does devices asks (stop : Act σ) := by
  intro s
  rw [exec_stop]
  exact .ofMove (.stop h s)

theorem tick : Does devices asks (tick : Act σ) := by
  intro s
  rw [exec_tick]
  exact .ofMove (.tick s)

theorem reset (h : asks .reset) : Does devices asks (reset : Act σ) := by
  intro s
  cases hs : s.machine.running with
  | true =>
    rw [exec_reset_running hs]
    exact .raise (.asked (.inr h))
  | false =>
    cases hm : s.machine.reset with
    | error c =>
      rw [exec_reset_error hs hm]
      exact .raise (.asked (.inr h))
    | ok m =>
      rw [exec_reset_ok hs hm]
      exact .ofMove (.reset h hs hm)

theorem step : Does devices asks (step : Act σ Bool) := by
  intro s
  cases hs : s.machine.state.step with
  | error f =>
    obtain ⟨lines, hx⟩ := exec_step_error hs
    rw [hx]
    exact .fault hs lines
  | ok r =>
    rw [exec_step_ok hs]
    exact .ofMove (.step hs)

/-! ### A burst -/

theorem followScript : Does devices asks (followScript : Act σ) := by
  intro s
  cases hs : s.scripted with
  | error e =>
    obtain ⟨p, hx⟩ := exec_followScript_error hs
    rw [hx]
    exact .script hs p
  | ok p =>
    rw [exec_followScript_ok hs]
    refine .move (.keypad s p) (.ofMove (.aside [] nofun ?_ rfl rfl (List.tail_suffix _)))
    exact Array.append_empty.symm

theorem waitForPress (timeout : Float) : Does devices asks (waitForPress timeout : Act σ Bool) := by
  refine (record rfl).bind fun _ => followScript.bind fun _ => get fun s => bind ?_ fun _ => ?_
  · exact change fun s => .keypad s _
  · cases s.machine.keypad.wake with
    | key | interrupt => exact pure _
    | timeout => exact (advance timeout).bind fun _ => pure _

theorem awaitKey (p : Pace) : Does devices asks (awaitKey p : Act σ Bool) := by
  refine get fun s => (waitForPress _).bind fun key => ?_
  cases key with
  | false => exact pure _
  | true => exact syncKeypad.bind fun _ => pure _

theorem sleepUntil (p : Pace) (moment : Float) : Does devices asks (p.sleepUntil moment : Act σ) := by
  rw [Pace.sleepUntil]
  cases p.paced with
  | false => exact pure _
  | true =>
    refine get fun s => ?_
    dsimp only
    split
    · exact (record rfl).bind fun _ => advance _
    · exact pure _

theorem round (p : Pace) : Does devices asks (round p : Act σ Round) := by
  have hstep :
      Does devices asks (do if ← Session.step then return .completed else return .waits :
        Act σ Round) := by
    refine step.bind fun b => ?_
    cases b <;> exact pure _
  refine get fun s => ?_
  cases s.machine.waiting with
  | false => exact hstep
  | true =>
    refine (awaitKey p).bind fun key => ?_
    cases key with
    | false => exact pure _
    | true => exact hstep

/-- Rounds that come to an end go by moves. -/
theorem goes_rounds (p : Pace) (total : Nat) {n : Nat} : ∀ {executed : Nat} {s : Session σ},
    (exec (rounds p total n executed) s).1 ≠ .error .unfinished →
      Goes devices asks s (exec (rounds p total n executed) s).1
        (exec (rounds p total n executed) s).2 := by
  induction n with
  | zero =>
    intro executed s hs
    rw [rounds] at hs ⊢
    by_cases hlt : executed < total
    · rw [if_pos hlt] at hs
      exact absurd rfl hs
    · rw [if_neg hlt]
      exact .done s
  | succ n ih =>
    intro executed s hs
    rw [rounds] at hs ⊢
    by_cases hlt : executed < total
    · simp only [if_pos hlt] at hs ⊢
      have hround : Goes devices asks s _ _ := round p s
      cases hr : exec (Session.round p) s with
      | mk r t =>
        rw [hr] at hround
        cases r with
        | error e =>
          rw [exec_bind_error hr]
          exact hround
        | ok r =>
          rw [exec_bind_ok hr] at hs ⊢
          refine Goes.trans hround ?_
          cases r with
          | held => exact .done t
          | waits => exact ih hs
          | completed =>
            let moment := p.start + Float.ofNat (executed + 1) * p.period
            have hsleep : Goes devices asks t _ _ := sleepUntil p moment t
            obtain ⟨sleeps, clock, hx⟩ := exec_sleepUntil p moment t
            dsimp only at hs ⊢
            rw [hx] at hsleep
            rw [exec_bind_ok hx] at hs ⊢
            exact Goes.trans hsleep (ih hs)
    · rw [if_neg hlt]
      exact .done s

theorem burst (p : Pace) {total : Nat} (h : 0 < total) : Does devices asks (burst p total : Act σ) := by
  intro s
  obtain ⟨r, t, es, k, hx, hd⟩ := rounds_end p h (Nat.le_refl _) s
  have hends : (exec (rounds p total (total + 1) 0) s).1 ≠ .error .unfinished := by
    rw [hx]
    exact hd.ends
  have hs : Goes devices asks s _ _ := goes_rounds p total hends
  rw [burst_eq_rounds p h (Nat.le_refl _)]
  rw [hx] at hs ⊢
  cases r with
  | ok x => exact hs
  | error e => exact hs

/-! ### Calls to the devices -/

variable {run : Act σ}

theorem onKeypad {q : Request} (hq : asks q) : Does devices asks (onKeypad q.onKeypad : Act σ) := by
  intro s
  cases h : q.onKeypad s.machine.keypad with
  | ok p =>
    rw [exec_onKeypad_ok (f := q.onKeypad) h]
    exact .ofMove (.keypad s p)
  | error e =>
    rw [exec_onKeypad_error (f := q.onKeypad) h]
    exact .raise (.refused hq h)

theorem perform (hrun : asks .run → Does devices asks run) {q : Request} (hq : asks q) :
    Does devices asks (perform run q) := by
  cases q with
  | run => exact hrun hq
  | reset => exact reset hq
  | stop => exact stop hq
  | advance seconds => exact advance seconds
  | observe => exact get fun s => record rfl
  | keypad c => exact onKeypad hq

theorem performAll (hrun : asks .run → Does devices asks run) {turns : List (Turn σ)}
    (h : Only asks turns) : Does devices asks (performAll run turns) := by
  induction turns with
  | nil => exact pure _
  | cons turn turns ih =>
    have ih := ih fun turn' h' => h turn' (List.mem_cons_of_mem turn h')
    refine get fun s => ?_
    cases hq : turn s.machine.keypad.keys s.devices with
    | none => exact ih
    | some q => exact (perform hrun (h turn List.mem_cons_self _ _ q hq)).bind fun _ => ih

theorem call (h : devices.Ask asks) (hrun : asks .run → Does devices asks run) {e : Event}
    {callback : Callback σ} (he : devices.callback? e = some callback) :
    Does devices asks (call run e callback) := by
  intro s
  rw [exec_call]
  exact .move (.call he s) (performAll hrun (h.callback he _ _) _)

/-! ### Frames and runs -/

theorem countFrame : Does devices asks (countFrame : Act σ) := by
  refine bind (change .count) fun _ => ?_
  intro s
  rw [exec_get_bind]
  dsimp only
  split
  · refine bind (change fun s => ?_) (fun _ => print _) s
    exact .aside [] nofun Array.append_empty.symm rfl rfl (List.suffix_refl _)
  · rename_i e h
    exact .raise (.noInterval (Logger.interval_of_frameStats h))

theorem endFrame (h : devices.Ask asks) (hrun : asks .run → Does devices asks run) :
    Does devices asks (endFrame devices run) := by
  have hsound : Does devices asks (soundTone devices run) := by
    refine get fun s => ?_
    split
    · exact call h hrun rfl
    · exact pure _
  have hrender : Does devices asks (renderDisplay devices run) := get fun _ => call h hrun rfl
  exact hsound.bind fun _ => tick.bind fun _ => hrender.bind fun _ => countFrame

theorem frame (h : devices.Ask asks) (hrun : asks .run → Does devices asks run) (paced : Bool) :
    Does devices asks (frame devices run paced) := by
  intro s
  rw [Session.frame, exec_get_bind]
  split
  · refine get (fun s => (call h hrun rfl).bind fun _ => syncKeypad.bind fun _ => ?_) s
    exact (burst _ s.machine.rates.instructionsPerFrame_pos).bind fun _ =>
      (sleepUntil _ _).bind fun _ => endFrame h hrun
  · rename_i e he
    exact .raise (.noTime he)

theorem guarded (h : asks .run) {loop : Act σ} (hloop : Does devices asks loop) :
    Does devices asks (guarded loop) := by
  intro s
  cases hs : s.machine.running with
  | true =>
    rw [exec_guarded_running hs]
    exact .raise (.asked (.inl h))
  | false =>
    rw [exec_guarded_stopped hs]
    refine .move (.enter h hs) ?_
    cases hx : exec loop s.entered with
    | mk r t =>
      have hgoes := hloop.goes hx
      cases r with
      | ok _ => exact hgoes.trans (.ofMove (.leave h t))
      | error e => exact .leave h hgoes

theorem frames (h : devices.Ask asks) (hrun : asks .run) (fuel : Nat) :
    ∀ (paced : Bool) (limit : Option Int) (done : Nat),
      Does devices asks (frames devices paced limit fuel done) := by
  induction fuel with
  | zero => exact fun _ _ _ => raise fun _ => .asked (.inl hrun)
  | succ fuel ih =>
    intro paced limit done
    unfold Session.frames
    refine get fun s => ?_
    split
    · refine (frame h (fun _ => guarded hrun (ih true none 0)) paced).bind fun _ => ?_
      cases limit with
      | none => exact ih _ _ _
      | some n =>
        dsimp only
        split
        · exact ih _ _ _
        · exact pure _
    · exact pure _

end Does

theorem Does.run (h : devices.Ask asks) (hrun : asks .run) (fuel : Nat) (limit : Option Int)
    (paced : Bool) : Does devices asks (run devices fuel limit paced) :=
  .guarded hrun (.frames h hrun fuel paced limit 0)

/-- A frame among devices that may ask for runs or not. -/
theorem Does.runFrame (h : devices.Ask asks) (fuel : Nat) (paced : Bool) :
    Does devices asks (runFrame devices fuel paced) :=
  .frame h (fun hrun => .run h hrun fuel none true) paced

end Session

end Chip8
