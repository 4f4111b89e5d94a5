import Chip8.Proofs.Session.Interruption

/-!
# How long the timers run

Only one instruction each sets the timers, and at the end of every frame both go down by one.  The tone is
sounded just before that.  So a timer that is set no more says how many frames are left to it.

* `Timer`, `Timer.Free`     the two timers, and events in which one of them is not set;
* `Timer.value_replay`      what a timer says after such events: it went down with every tick;
* `Completed.countdown`     a completed frame takes one from the timer, and sounds if the sound timer ran;
* `Between`, `Sequence`     what may happen between two frames, and frames one after the other;
* `Sequence.of_run`         a run is such a sequence;
* `timers_run_out`          the main statement.
-/

namespace Chip8

namespace Event

def isTicked : Event → Bool
  | ticked => true
  | _ => false

end Event

inductive Timer where
  | delay
  | sound
  deriving DecidableEq, Repr

namespace Timer

def value : Timer → State → UInt8
  | delay, s => s.delay
  | sound, s => s.sound

/-- The instruction that sets the timer. -/
def setter : Timer → Fin 16 → Instruction
  | delay, x => .setDelay x
  | sound, x => .setSound x

/-- The event is the execution of an instruction that sets the timer. -/
def sets (τ : Timer) : Event → Bool
  | .executed w => decide (∃ x, w.toNat = (τ.setter x).word)
  | _ => false

/-- The timer is not set in these events. -/
def Free (τ : Timer) (es : List Event) : Prop := ∀ e ∈ es, τ.sets e = false

instance (τ : Timer) (es : List Event) : Decidable (τ.Free es) :=
  List.decidableBAll _ es

variable {τ : Timer} {s t : State} {es fs : List Event} {w : UInt16} {n : Nat}

theorem sets_executed : τ.sets (.executed w) = false ↔ ∀ x, w.toNat ≠ (τ.setter x).word := by
  rw [sets, decide_eq_false_iff_not, not_exists]

theorem free_cons {e : Event} : τ.Free (e :: es) ↔ τ.sets e = false ∧ τ.Free es :=
  List.forall_mem_cons

theorem free_append : τ.Free (es ++ fs) ↔ τ.Free es ∧ τ.Free fs := List.forall_mem_append

theorem value_tick (τ : Timer) (s : State) : (τ.value s.tick).toNat = (τ.value s).toNat - 1 := by
  cases τ with
  | delay => exact s.tick_delay
  | sound => exact s.tick_sound

/-- No other instruction touches the timer. -/
theorem value_step (h : s.step = .ok (t, w)) (hw : τ.sets (.executed w) = false) :
    τ.value t = τ.value s := by
  rw [sets_executed] at hw
  obtain ⟨-, he⟩ := State.step_eq_ok_iff.mp h
  obtain ⟨i, hi, hp⟩ := State.execute_eq_ok_iff.mp he
  have hframe : Frame i s.skip t := State.perform_frame hp
  have hne (x : Fin 16) : i ≠ τ.setter x := by
    rintro rfl
    exact hw x (Int.ofNat.inj hi).symm
  cases τ with
  | delay =>
    refine hframe.delay fun hwrites => ?_
    cases i with
    | setDelay x => exact hne x rfl
    | _ => exact hwrites
  | sound =>
    refine hframe.sound fun hwrites => ?_
    cases i with
    | setSound x => exact hne x rfl
    | _ => exact hwrites

/-- A timer that is not set goes down with every tick. -/
theorem value_replay (h : s.Replay es t n) (hfree : τ.Free es) :
    (τ.value t).toNat = (τ.value s).toNat - es.countP Event.isTicked := by
  induction h with
  | nil => rfl
  | completed hs hw _ ih | held hs hw _ ih =>
    obtain ⟨hset, hrest⟩ := free_cons.mp hfree
    rw [ih hrest, value_step hs hset]
    rfl
  | faulted _ _ ih => exact ih (free_cons.mp hfree).2
  | synced _ ih =>
    rw [ih (free_cons.mp hfree).2]
    cases τ <;> rfl
  | ticked _ ih =>
    rw [ih (free_cons.mp hfree).2, value_tick, List.countP_cons_of_pos rfl]
    omega
  | @idle _ _ e _ _ he _ ih =>
    have hno : ¬ e.isTicked = true := by
      cases e with
      | ticked => cases he
      | _ => exact Bool.false_ne_true
    rw [ih (free_cons.mp hfree).2, List.countP_cons_of_neg hno]

end Timer

/-- The operation is neither a frame nor a run nor a reset. -/
def Operation.isAside {σ : Type} : Operation σ → Bool
  | .reset | .runFrame .. | .run .. => false
  | _ => true

namespace Session

variable {σ : Type} {devices : Peripherals σ} {fuel : Nat} {paced : Bool} {s t u v : Session σ}
  {p : Keypad} {es : List Event} {a : State} {n : Nat} {τ : Timer}

/-! ### One frame -/

/-- In a burst nothing is sounded, and no timer goes down. -/
theorem Course.closes_later {live : Except Keypad.Error Keypad} (h : Course live es) :
    es.countP Event.isSounded = 0 ∧ es.countP Event.isTicked = 0 := by
  have hnone : ∀ e ∈ es, e.isSounded = false ∧ e.isTicked = false := by
    intro e he
    obtain hstep | ⟨timeout, rfl⟩ | ⟨keys, rfl⟩ := h.mem he
    · cases e with
      | sounded | ticked => cases hstep
      | _ => exact ⟨rfl, rfl⟩
    · exact ⟨rfl, rfl⟩
    · exact ⟨rfl, rfl⟩
  constructor
  · exact List.countP_eq_zero.mpr fun e he => by simp [(hnone e he).1]
  · exact List.countP_eq_zero.mpr fun e he => by simp [(hnone e he).2]

/-- A frame sounds once if the sound timer runs at the end of its burst, and else not at all. -/
theorem Completed.sounds (h : Completed devices s t p es a n) :
    (since s t).countP Event.isSounded = if 0 < a.sound.toNat then 1 else 0 := by
  have hcount := h.happened.countP (q := Event.isSounded) fun e he => by
    cases e with
    | sounded => rfl
    | _ => cases he
  rw [hcount, List.countP_cons_of_neg Bool.false_ne_true, List.countP_cons_of_neg Bool.false_ne_true,
    List.countP_append, h.course.closes_later.1, alarm]
  by_cases hzero : a.sound = 0
  · rw [if_pos hzero, hzero]
    rfl
  · have hpos : 0 < a.sound.toNat := Nat.pos_of_ne_zero fun h => hzero (UInt8.toNat_inj.mp h)
    rw [if_neg hzero, if_pos hpos]
    rfl

/-- The timer at the end of the burst is the one at the beginning of the frame if it is not set. -/
theorem Completed.value_eq (h : Completed devices s t p es a n) (hfree : τ.Free (since s t)) :
    (τ.value a).toNat = (τ.value s.machine.state).toNat := by
  have hburst : τ.Free es := by
    obtain ⟨all, htrace, hall⟩ := h.happened
    rw [since_eq htrace] at hfree
    intro e he
    have hmem : e ∈ all.filter (!·.isRemark) := by
      rw [hall]
      simp [he]
    exact hfree e (List.mem_filter.mp hmem).1
  rw [Timer.value_replay h.replay hburst, h.course.closes_later.2, Nat.sub_zero]
  cases τ <;> rfl

/-- A completed frame takes one from the timer that it ends its burst with. -/
theorem Completed.countdown (h : Completed devices s t p es a n) (τ : Timer) :
    (τ.value t.machine.state).toNat = (τ.value a).toNat - 1 := by
  rw [h.state, Timer.value_tick]

/-! ### Frames one after the other -/

/-- What may happen between two frames: any operation but a frame, a run and a reset, and the beginning
and the end of a run. -/
inductive Between : Session σ → Session σ → Prop
  | act {o : Operation σ} (ho : o.isAside = true) (s : Session σ) : Between s (exec o.act s).2
  | enter (s : Session σ) : Between s s.entered
  | leave (s : Session σ) : Between s s.left

/-- Completed frames one after the other lead from one session to another, whatever happens between them.
Each is given by the session before it and the one after it. -/
inductive Sequence : Session σ → List (Session σ × Session σ) → Session σ → Prop
  | nil (s : Session σ) : Sequence s [] s
  | frame {s t u : Session σ} {fs : List (Session σ × Session σ)} {devices : Peripherals σ}
      (hq : devices.Quiet) {fuel : Nat} {paced : Bool}
      (hx : exec (runFrame devices fuel paced) s = (.ok (), t)) (rest : Sequence t fs u) :
      Sequence s ((s, t) :: fs) u
  | between {s t u : Session σ} {fs : List (Session σ × Session σ)} (h : Between s t)
      (rest : Sequence t fs u) : Sequence s fs u

/-- What happens between two frames are these events; without an instruction that sets it, a timer stays
as it is. -/
structure Idle (s t : Session σ) (es : List Event) : Prop where
  trace : t.trace = s.trace ++ es.toArray
  frames : t.machine.frameCount = s.machine.frameCount
  timers : ∀ τ : Timer, τ.Free es → τ.value t.machine.state = τ.value s.machine.state

theorem Idle.same {es : List Event} (htrace : t.trace = s.trace ++ es.toArray)
    (hframes : t.machine.frameCount = s.machine.frameCount)
    (hdelay : t.machine.state.delay = s.machine.state.delay)
    (hsound : t.machine.state.sound = s.machine.state.sound) : Idle s t es where
  trace := htrace
  frames := hframes
  timers τ _ := by
    cases τ with
    | delay => exact hdelay
    | sound => exact hsound

theorem Idle.keypad (p : Keypad) (s : Session σ) :
    Idle s { s with machine := { s.machine with keypad := p } } [] :=
  .same Array.append_empty.symm rfl rfl rfl

/-- A step is the only one of these that may set a timer. -/
theorem idle_step (s : Session σ) : ∃ es, Idle s (exec (do let _ ← step) s).2 es := by
  cases hs : s.machine.state.step with
  | ok r =>
    obtain ⟨b, w⟩ := r
    refine ⟨[.executed w], ?_⟩
    rw [exec_bind_ok (exec_step_ok hs)]
    exact {
      trace := rfl
      frames := rfl
      timers := fun τ hfree => Timer.value_step hs (hfree _ List.mem_cons_self) }
  | error f =>
    obtain ⟨lines, hx⟩ := exec_step_error hs
    rw [exec_bind_error hx]
    exact ⟨_, .same rfl rfl rfl rfl⟩

theorem idle_load {o : Operation σ} {program : List UInt8} (h : o.program? = some program)
    (s : Session σ) : ∃ es, Idle s (exec o.act s).2 es := by
  obtain ⟨m, lines, hm, hx⟩ | ⟨c, -, hx⟩ := exec_act_load_cases h s
  · rw [hx, (Machine.load_eq_ok hm).2]
    exact ⟨lines.map .printed, .same rfl rfl rfl rfl⟩
  · rw [hx]
    exact ⟨[], .same Array.append_empty.symm rfl rfl rfl⟩

theorem Between.idle (h : Between s t) : ∃ es, Idle s t es := by
  cases h with
  | enter _ =>
    obtain ⟨lines, htrace⟩ := s.entered_trace
    exact ⟨_, .same htrace rfl rfl rfl⟩
  | leave _ =>
    obtain ⟨lines, htrace⟩ := s.left_trace
    exact ⟨_, .same htrace rfl rfl rfl⟩
  | @act o ho _ =>
    cases o with
    | reset | runFrame _ _ _ | run _ _ _ _ => cases ho
    | load program => exact idle_load rfl s
    | loadFile name contents =>
      cases contents with
      | ok program => exact idle_load rfl s
      | error e => exact ⟨[], .same Array.append_empty.symm rfl rfl rfl⟩
    | syncKeypad =>
      show ∃ es, Idle s (exec syncKeypad s).2 es
      rw [exec_syncKeypad]
      exact ⟨[.synced _], .same rfl rfl rfl rfl⟩
    | step => exact idle_step s
    | stop =>
      show ∃ es, Idle s (exec stop s).2 es
      rw [exec_stop]
      exact ⟨[.stopped], .same rfl rfl rfl rfl⟩
    | keypad change =>
      show ∃ es, Idle s (exec (onKeypad change) s).2 es
      cases hc : change s.machine.keypad with
      | ok p =>
        rw [exec_onKeypad_ok hc]
        exact ⟨[], .keypad p s⟩
      | error e =>
        rw [exec_onKeypad_error hc]
        exact ⟨[], .same Array.append_empty.symm rfl rfl rfl⟩
    | advance seconds => exact ⟨[], .same Array.append_empty.symm rfl rfl rfl⟩
    | equip devices script => exact ⟨[], .same Array.append_empty.symm rfl rfl rfl⟩

/-! ### What the timers say along a sequence -/

theorem Sequence.trace {fs : List (Session σ × Session σ)} (h : Sequence s fs u) :
    ∃ es : List Event, u.trace = s.trace ++ es.toArray := by
  induction h with
  | nil s => exact ⟨[], by simp⟩
  | @frame s t u fs devices hq fuel paced hx _ ih =>
    obtain ⟨es, hes⟩ := ih
    have htrace := ((Does.runFrame hq fuel paced).goes hx).account.trace
    exact ⟨since s t ++ es, by rw [hes, htrace, Array.append_assoc, List.append_toArray (since s t)]⟩
  | between hb _ ih =>
    obtain ⟨es, hes⟩ := ih
    obtain ⟨fs, hidle⟩ := hb.idle
    exact ⟨fs ++ es, by rw [hes, hidle.trace, Array.append_assoc, List.append_toArray fs]⟩

theorem Sequence.since_append {es : List Event} {fs : List (Session σ × Session σ)}
    (h : Sequence t fs u) (htrace : t.trace = s.trace ++ es.toArray) :
    since s u = es ++ since t u := by
  obtain ⟨gs, htrace'⟩ := h.trace
  rw [since_trans htrace htrace', since_eq htrace]

/-- Along a sequence in which it is not set, a timer says how many frames are left to it. -/
theorem Sequence.countdown {fs : List (Session σ × Session σ)} (h : Sequence s fs u) (τ : Timer)
    (hfree : τ.Free (since s u)) :
    (τ.value u.machine.state).toNat = (τ.value s.machine.state).toNat - fs.length := by
  induction h with
  | nil s => rfl
  | @frame s t u fs devices hq fuel paced hx hrest ih =>
    obtain ⟨p, es, a, n, hc⟩ := runFrame_completed hq hx
    have htrace := ((Does.runFrame hq fuel paced).goes hx).account.trace
    rw [hrest.since_append htrace, Timer.free_append] at hfree
    rw [ih hfree.2, hc.countdown, hc.value_eq hfree.1, List.length_cons]
    omega
  | between hb hrest ih =>
    obtain ⟨es, hidle⟩ := hb.idle
    rw [hrest.since_append hidle.trace, Timer.free_append] at hfree
    rw [ih hfree.2, hidle.timers τ hfree.1]

/-- So the tone is sounded in as many frames as the sound timer says. -/
theorem Sequence.sounds {fs : List (Session σ × Session σ)} (h : Sequence s fs u)
    (hfree : Timer.sound.Free (since s u)) (i : Nat) (hi : i < fs.length) :
    (since fs[i].1 fs[i].2).countP Event.isSounded =
      if i < s.machine.state.sound.toNat then 1 else 0 := by
  induction h generalizing i with
  | nil s => cases hi
  | @frame s t u fs devices hq fuel paced hx hrest ih =>
    obtain ⟨p, es, a, n, hc⟩ := runFrame_completed hq hx
    have htrace := ((Does.runFrame hq fuel paced).goes hx).account.trace
    rw [hrest.since_append htrace, Timer.free_append] at hfree
    have hbefore : a.sound.toNat = s.machine.state.sound.toNat := hc.value_eq hfree.1
    have hafter : t.machine.state.sound.toNat = a.sound.toNat - 1 := hc.countdown .sound
    cases i with
    | zero => exact hbefore ▸ hc.sounds
    | succ i =>
      have hi' : i < fs.length := Nat.lt_of_succ_lt_succ hi
      have hiff : i < t.machine.state.sound.toNat ↔ i + 1 < s.machine.state.sound.toNat := by omega
      refine (ih hfree.2 i hi').trans ?_
      simp only [hiff]
  | @between s t u fs hb hrest ih =>
    obtain ⟨es, hidle⟩ := hb.idle
    rw [hrest.since_append hidle.trace, Timer.free_append] at hfree
    have hsame : t.machine.state.sound = s.machine.state.sound := hidle.timers .sound hfree.1
    exact hsame ▸ ih hfree.2 i hi

theorem Sequence.frameCount {fs : List (Session σ × Session σ)} (h : Sequence s fs u) :
    u.machine.frameCount = s.machine.frameCount + fs.length := by
  induction h with
  | nil s => rfl
  | frame hq hx _ ih =>
    obtain ⟨p, es, a, n, hc⟩ := runFrame_completed hq hx
    rw [ih, hc.frames, List.length_cons, Nat.add_right_comm, Nat.add_assoc]
  | between hb _ ih =>
    obtain ⟨es, hidle⟩ := hb.idle
    rw [ih, hidle.frames]

/-! ### Runs are sequences -/

theorem Sequence.trans {fs gs : List (Session σ × Session σ)} (h : Sequence s fs t)
    (h' : Sequence t gs u) : Sequence s (fs ++ gs) u := by
  induction h with
  | nil s => exact h'
  | frame hq hx _ ih => exact .frame hq hx (ih h')
  | between hb _ ih => exact .between hb (ih h')

/-- The loop of a run goes from one frame to the next. -/
theorem Sequence.of_frames (hq : devices.Quiet) (paced : Bool) (limit : Option Int) (fuel : Nat) :
    ∀ (done : Nat) {s t : Session σ},
      exec (frames devices paced limit fuel done) s = (.ok (), t) → ∃ fs, Sequence s fs t := by
  induction fuel with
  | zero =>
    intro done s t hx
    cases hx
  | succ fuel ih =>
    intro done s t hx
    cases hrun : s.machine.running with
    | false =>
      rw [frames_of_idle hrun] at hx
      cases hx
      exact ⟨[], .nil s⟩
    | true =>
      cases hframe : exec (runFrame devices 0 paced) s with
      | mk r u =>
        cases r with
        | error e =>
          rw [frames_of_error hq hrun hframe] at hx
          cases hx
        | ok _ =>
          by_cases hnext : Remains limit done
          · rw [frames_of_next hq hrun hframe hnext] at hx
            obtain ⟨fs, hrest⟩ := ih (done + 1) hx
            exact ⟨_, .frame hq hframe hrest⟩
          · rw [frames_of_last hq hrun hframe hnext] at hx
            cases hx
            exact ⟨_, .frame hq hframe (.nil _)⟩

theorem Sequence.of_run (hq : devices.Quiet) {limit : Option Int}
    (hx : exec (run devices fuel limit paced) s = (.ok (), t)) : ∃ fs, Sequence s fs t := by
  rw [run] at hx
  cases hrun : s.machine.running with
  | true =>
    rw [exec_guarded_running hrun] at hx
    cases hx
  | false =>
    rw [exec_guarded_stopped hrun] at hx
    cases hloop : exec (frames devices paced limit fuel 0) s.entered with
    | mk r u =>
      rw [hloop] at hx
      cases hx
      obtain ⟨fs, hfs⟩ := Sequence.of_frames hq paced limit fuel 0 hloop
      exact ⟨_, .between (.enter s) (hfs.trans (.between (.leave u) (.nil _)))⟩

/-- **The timers say how many frames are left to them**, in any sequence of completed frames in which they are
not set after the burst of the first one.  The tone is sounded in exactly as many, the first ones. -/
theorem timers_run_out (hq : devices.Quiet) (hx : exec (runFrame devices fuel paced) s = (.ok (), u)) :
    ∃ p burst a n, Completed devices s u p burst a n ∧
      ∀ (fs : List (Session σ × Session σ)) (v : Session σ), Sequence u fs v →
        v.machine.frameCount = s.machine.frameCount + (fs.length + 1) ∧
        (Timer.sound.Free (since u v) → ∀ (i : Nat) (hi : i < ((s, u) :: fs).length),
          (since ((s, u) :: fs)[i].1 ((s, u) :: fs)[i].2).countP Event.isSounded =
            if i < a.sound.toNat then 1 else 0) ∧
        (Timer.delay.Free (since u v) →
          v.machine.state.delay.toNat = a.delay.toNat - (fs.length + 1)) := by
  obtain ⟨p, burst, a, n, hc⟩ := runFrame_completed hq hx
  have hsound : u.machine.state.sound.toNat = a.sound.toNat - 1 := hc.countdown .sound
  have hdelay : u.machine.state.delay.toNat = a.delay.toNat - 1 := hc.countdown .delay
  refine ⟨p, burst, a, n, hc, fun fs v hfs => ⟨?_, fun hfree i hi => ?_, fun hfree => ?_⟩⟩
  · rw [hfs.frameCount, hc.frames, Nat.add_assoc, Nat.add_comm 1]
  · cases i with
    | zero => exact hc.sounds
    | succ i =>
      have hiff : i < u.machine.state.sound.toNat ↔ i + 1 < a.sound.toNat := by omega
      refine (hfs.sounds hfree i (Nat.lt_of_succ_lt_succ hi)).trans ?_
      simp only [hiff]
  · have hlast : v.machine.state.delay.toNat = u.machine.state.delay.toNat - fs.length :=
      hfs.countdown .delay hfree
    omega

/-- A program that sets the sound timer to two, and then waits for a key. -/
def chiming : Session Unit :=
  { twoPerFrame with
    machine := { twoPerFrame.machine with
      state := (State.initial ⟨0, 0⟩ false).after
        [.load [0x60, 0x02, 0xF0, 0x18, 0xF1, 0x0A]] }
    script := [] }

/-- The first frame sets the timer, and the one frame of the run after it does not. -/
theorem exec_chiming : ∃ u v, exec (runFrame .none 0 false) chiming = (.ok (), u) ∧
    u.machine.running = false ∧ u.machine.state.sound = 1 ∧
    exec (runFrame .none 0 false) u.entered = (.ok (), v) ∧
    Timer.sound.Free (since u v.left) ∧ v.left.machine.frameCount = 2 := by
  rw [runFrame, exec_frame (by decide +kernel)]
  refine ⟨_, _, exec_eq_of_isOk (by decide +kernel), by decide +kernel, by decide +kernel,
    exec_eq_of_isOk ?_, ?_, ?_⟩
  · rw [exec_frame (by decide +kernel)]
    decide +kernel
  · rw [exec_frame (by decide +kernel)]
    decide +kernel
  · rw [exec_frame (by decide +kernel)]
    decide +kernel

/-- The tone is sounded in the frame that sets the timer, and in the one frame of the run after it. -/
theorem timers_run_out_chiming : (Peripherals.none : Peripherals Unit).Quiet ∧
    ∃ u v, exec (runFrame .none 0 false) chiming = (.ok (), u) ∧
      exec (run .none 1 (some 1) false) u = (.ok (), v) ∧ Timer.sound.Free (since u v) ∧
      ∃ fs, Sequence u fs v ∧ ((chiming, u) :: fs).length = 2 ∧
        ∀ (i : Nat) (hi : i < ((chiming, u) :: fs).length),
          (since ((chiming, u) :: fs)[i].1 ((chiming, u) :: fs)[i].2).countP Event.isSounded = 1 := by
  have hquiet : (Peripherals.none : Peripherals Unit).Quiet := Peripherals.quiet_none
  obtain ⟨u, v, hu, hstopped, hsound, hv, hfree, hframes⟩ := exec_chiming
  have hlast : ¬ Remains (some 1) 0 := fun h => absurd (h 1 rfl) (by decide)
  have hrun : exec (run .none 1 (some 1) false) u = (.ok (), v.left) := by
    rw [run, exec_guarded_stopped hstopped, frames_of_last hquiet rfl hv hlast]
  obtain ⟨fs, hfs⟩ := Sequence.of_run hquiet hrun
  obtain ⟨p, burst, a, n, hc, hall⟩ := timers_run_out hquiet hu
  obtain ⟨hcount, hsounds, -⟩ := hall fs v.left hfs
  have hlength : ((chiming, u) :: fs).length = 2 := by
    have hzero : chiming.machine.frameCount = 0 := rfl
    rw [List.length_cons]
    omega
  have htwo : a.sound.toNat = 2 := by
    have h : u.machine.state.sound.toNat = a.sound.toNat - 1 := hc.countdown .sound
    rw [hsound, show (1 : UInt8).toNat = 1 from rfl] at h
    omega
  refine ⟨hquiet, u, v.left, hu, hrun, hfree, fs, hfs, hlength, fun i hi => ?_⟩
  rw [hsounds hfree i hi, if_pos (by omega)]

end Session

end Chip8
