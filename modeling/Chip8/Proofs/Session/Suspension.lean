import Chip8.Proofs.Invariant
import Chip8.Proofs.Session.Interruption
import Chip8.Proofs.Session.Waiting

/-!
# Frames of a machine that waits for a key

A machine at a key wait begins its burst with a wait.  If that finds no key, the burst is over and the
frame does nothing else but end; if it finds one, the key wait is executed again and takes it.

* `Keyless`               no key is down at the poll of the next frame, nor when its wait is over;
* `exec_burst_held`, `exec_burst_resumed`   the burst without a key and with one;
* `Dozed`, `Suspended`    what a frame without a key does, and what a number of them do;
* `Resolved`              what a frame with a key does first;
* `key_wait_stutters`     the main statement.
-/

namespace Chip8

namespace Keys

theorem eq_none_of_any {k : Keys} (h : k.any = false) : k = .none := by
  refine Vector.ext fun i hi => ?_
  have hup : k.get ⟨i, hi⟩ = false := by
    rw [← Bool.not_eq_true]
    intro hdown
    have hany : k.any = true := any_iff.mpr ⟨_, hdown⟩
    rw [hany] at h
    cases h
  rw [none, Vector.getElem_replicate]
  exact hup

/-- The lowest key is the one that is down with none below it. -/
theorem lowest?_eq_some_iff {k : Keys} {j : Fin 16} :
    k.lowest? = some j ↔ k.get j = true ∧ ∀ i < j, k.get i = false := by
  rw [lowest?, List.find?_eq_some_iff_getElem]
  refine and_congr_right fun _ => ⟨?_, ?_⟩
  · rintro ⟨n, hn, rfl, hbelow⟩ i hi
    have hlt : i.val < n := by simpa [Fin.lt_def] using hi
    simpa using hbelow i hlt
  · intro h
    refine ⟨j.val, by simp, by simp, fun i hi => ?_⟩
    simpa using h ⟨i, by omega⟩ hi

end Keys

namespace Keypad

variable {p q : Keypad} {cs : List Change}

/-- A key that is pressed is down, and no other comes up. -/
theorem any_of_press {k : Int} (h : p.press k = .ok q) : q.keys.any = true := by
  rw [press, set, bind_eq_ok_iff] at h
  obtain ⟨i, -, hset⟩ := h
  obtain rfl := Except.ok.inj hset
  have hdown : (p.keys.set i true).get i = true := Vector.getElem_set_self (Number.lt_sixteen i)
  exact Keys.any_iff.mpr ⟨i, hdown⟩

/-- If keys are pressed only, and one was down before or is pressed, then one is down. -/
theorem any_of_presses (hcs : ∀ c ∈ cs, ∃ k, c = .press k) (h : p.changeAll cs = .ok q)
    (hany : p.keys.any = true ∨ cs ≠ []) : q.keys.any = true := by
  induction cs generalizing p with
  | nil =>
    cases h
    exact hany.resolve_right fun h => h rfl
  | cons c cs ih =>
    obtain ⟨⟨k, rfl⟩, hrest⟩ := List.forall_mem_cons.mp hcs
    rw [changeAll_cons, bind_eq_ok_iff] at h
    obtain ⟨p', hpress, h⟩ := h
    exact ih hrest h (.inl (any_of_press hpress))

end Keypad

namespace State
variable {s : State} {x : Fin 16} {w : UInt16}

theorem skip_pc_toNat_of_fetch (h : s.fetch = .ok w) : s.skip.pc.toNat = s.pc.toNat + 2 := by
  obtain ⟨hpc, -⟩ := fetch_eq_ok_iff.mp h
  exact skip_toNat (by omega)

/-- A key wait takes the lowest key that is down, and is over. -/
theorem step_awaitKey (hf : s.fetch = .ok w) (hw : w.toNat = (Instruction.awaitKey x).word)
    {j : Fin 16} (hj : s.keys.lowest? = some j) :
    s.step = .ok (s.skip.setV x (UInt8.ofNat j), w) ∧
      s.waits (s.skip.setV x (UInt8.ofNat j)) w = false := by
  have hperform : s.skip.perform (.awaitKey x) = .ok (s.skip.setV x (UInt8.ofNat j)) := by
    have hkeys : s.skip.keys.lowest? = some j := hj
    rw [perform, hkeys]
    rfl
  refine ⟨step_eq_ok_iff.mpr ⟨hf, execute_eq_ok_iff.mpr ⟨_, congrArg Nat.cast hw.symm, hperform⟩⟩, ?_⟩
  have hpc : (s.skip.setV x (UInt8.ofNat j)).pc ≠ s.pc := by
    intro h
    have hskip := skip_pc_toNat_of_fetch hf
    have hsame : s.skip.pc.toNat = s.pc.toNat := congrArg UInt16.toNat h
    omega
  rw [waits, beq_eq_false_iff_ne.mpr hpc, Bool.and_false]

/-- The state after `k` ticks without a key. -/
def rested (s : State) (k : Nat) : State :=
  { s with
    delay := UInt8.ofNat (s.delay.toNat - k)
    sound := UInt8.ofNat (s.sound.toNat - k)
    keys := .none }

theorem rested_zero (s : State) : s.rested 0 = { s with keys := .none } := by
  rw [rested, Nat.sub_zero, Nat.sub_zero, UInt8.ofNat_toNat, UInt8.ofNat_toNat]

theorem rested_sound (s : State) (k : Nat) : (s.rested k).sound.toNat = s.sound.toNat - k := by
  have := s.sound.toNat_lt
  exact UInt8.toNat_ofNat_of_lt' (show s.sound.toNat - k < 256 by omega)

theorem rested_delay (s : State) (k : Nat) : (s.rested k).delay.toNat = s.delay.toNat - k := by
  have := s.delay.toNat_lt
  exact UInt8.toNat_ofNat_of_lt' (show s.delay.toNat - k < 256 by omega)

theorem rested_tick (s : State) (k : Nat) : (s.rested k).tick = s.rested (k + 1) := by
  have hdelay : (s.rested k).tick.delay = (s.rested (k + 1)).delay := by
    apply UInt8.toNat_inj.mp
    rw [tick_delay, rested_delay, rested_delay, Nat.sub_sub]
  have hsound : (s.rested k).tick.sound = (s.rested (k + 1)).sound := by
    apply UInt8.toNat_inj.mp
    rw [tick_sound, rested_sound, rested_sound, Nat.sub_sub]
  show { s.rested k with delay := (s.rested k).tick.delay, sound := (s.rested k).tick.sound } = _
  rw [hdelay, hsound]
  rfl

end State

namespace Session

variable {σ : Type} {asks : Request → Prop} {devices : Peripherals σ} {fuel : Nat} {paced : Bool}
  {s t u : Session σ} {r : Except Failure Unit}

/-- In the next frame no key is down after the poll, nor when the wait is over. -/
def Keyless (devices : Peripherals σ) (s : Session σ) : Prop :=
  ∀ p, devices.polled s.devices s.machine.keypad = .ok p → p.keys.any = false ∧
    ∀ q, p.scripted s.script = .ok q → q.keys.any = false

/-! ### A burst that begins with a wait -/

section
variable (p : Pace) {total : Nat} (htotal : 0 < total) (hw : s.machine.waiting = true)
include htotal hw

theorem exec_burst_waiting : exec (burst p total) s =
    exec (awaitKey p >>= fun key => if key then stepAndRounds p total total 0 else pure ()) s := by
  rw [burst_eq_rounds p htotal (Nat.le_refl _), exec_rounds_succ htotal, if_pos hw]

theorem exec_burst_refused {e : Keypad.Error} (hq : s.scripted = .error e) :
    ∃ t, exec (burst p total) s = (.error (.keypad e), t) ∧
      Happened s t [.awaited (p.timeout s.clock)] := by
  obtain ⟨k, hx⟩ := exec_followScript_error (s := s.log [.awaited (p.timeout s.clock)]) hq
  have hburst := exec_bind_error (exec_awaitKey_error hx)
    fun key => if key then stepAndRounds p total total 0 else pure ()
  exact ⟨_, (exec_burst_waiting p htotal hw).trans hburst, ⟨[.awaited _], rfl, rfl⟩⟩

variable {q : Keypad} (hq : s.scripted = .ok q)
include hq

theorem exec_burst_held (hnone : q.keys.any = false) :
    exec (burst p total) s = (.ok (), s.waited (p.timeout s.clock) q) := by
  have hx := exec_awaitKey_ok hq p
  rw [hnone, if_neg Bool.false_ne_true] at hx
  rw [exec_burst_waiting p htotal hw, exec_bind_ok hx]
  rfl

theorem exec_burst_resumed (hany : q.keys.any = true) : exec (burst p total) s =
    exec (stepAndRounds p total total 0) (s.resumed (p.timeout s.clock) q) := by
  have hx := exec_awaitKey_ok hq p
  rw [hany, if_pos rfl] at hx
  rw [exec_burst_waiting p htotal hw, exec_bind_ok hx]
  rfl

end

/-! ### Frames without a key -/

/-- A wait changes nothing in the state. -/
theorem waited_passage (s : Session σ) (timeout : Float) (q : Keypad) :
    Passage s (s.waited timeout q) [.awaited timeout] 0 :=
  ⟨⟨[.awaited timeout], rfl, rfl⟩, .idle rfl (.nil _), rfl, rfl⟩

/-- A frame from `s` to `t` in which the machine waited for a key and none came. -/
structure Dozed (s t : Session σ) : Prop where
  happened : ∃ timeout, Happened s t (.polled :: .synced .none :: .awaited timeout ::
    (alarm s.machine.state.sound ++ [.ticked, .rendered s.machine.state.display]))
  state : t.machine.state = { s.machine.state with keys := .none }.tick
  waiting : t.machine.waiting = true
  instructions : t.machine.instructionCount = s.machine.instructionCount
  frames : t.machine.frameCount = s.machine.frameCount + 1

/-- The wait of a frame found no key, and the frame came to its end. -/
theorem Ended.dozed {v : Session σ} {p q : Keypad} {timeout : Float} {es : List Event}
    (he : Ended v (.ok ()) t es) (ho : Opened devices s u p) (hw : u.machine.waiting = true)
    (hv : v = u.waited timeout q) (hnone : p.keys.any = false) : Dozed s t := by
  have hkeys : p.keys = .none := Keys.eq_none_of_any hnone
  have hheld : Passage u v [.awaited timeout] 0 := hv ▸ waited_passage u timeout q
  obtain ⟨rfl, hstate, hwaiting, hframes⟩ := he.completed rfl
  have hvstate : v.machine.state = { s.machine.state with keys := .none } := by
    rw [hv, ← hkeys]
    exact ho.state
  have hpass := ho.passage.trans hheld
  refine ⟨⟨timeout, ?_⟩, hvstate ▸ hstate, ?_, ?_, ?_⟩
  · have hall := hpass.happened.trans he.happened
    rw [hvstate, hkeys] at hall
    exact hall
  · rw [hwaiting, hv]
    exact hw
  · exact he.instructions.trans hpass.instructions
  · rw [hframes, hpass.frames]

/-- Without a key, nothing faults in a frame that begins with a wait. -/
theorem runFrame_dozed (hq : devices.Quiet) (hwait : s.machine.waiting = true)
    (hnone : Keyless devices s) (hx : exec (runFrame devices fuel paced) s = (r, t)) :
    (∀ f, .faulted f ∉ since s t) ∧ (r = .ok () → Dozed s t) := by
  have hfaultless {es : List Event} (h : Happened s t es) (hes : ∀ f, .faulted f ∉ es) :
      ∀ f, .faulted f ∉ since s t := fun f hf => hes f (h.mem hf rfl)
  have htotal := s.machine.rates.instructionsPerFrame_pos
  obtain ⟨e, hx', -⟩ | ⟨pace, hx', -⟩ := runFrame_cases devices fuel paced s
  · cases hx'.symm.trans hx
    exact ⟨hfaultless (.nothing rfl) nofun, nofun⟩
  rw [hx'] at hx
  obtain ⟨e, v, hx', hp, -⟩ | ⟨p, u, ho, hw, hx'⟩ := pacedFrame_opens hq _ pace s
  · cases hx'.symm.trans hx
    exact ⟨hfaultless hp.happened (by simp), nofun⟩
  rw [hx'] at hx
  cases hs : u.scripted with
  | error e =>
    obtain ⟨v, hburst, hawaited⟩ := exec_burst_refused pace htotal (hw.trans hwait) hs
    cases (exec_bind_error hburst _).symm.trans hx
    exact ⟨hfaultless (ho.passage.happened.trans hawaited) (by simp), nofun⟩
  | ok q =>
    obtain ⟨hpoll, hscript⟩ := hnone p ho.polled
    have hkey := hscript q (ho.live.symm.trans hs)
    rw [exec_bind_ok (exec_burst_held pace htotal (hw.trans hwait) hs hkey)] at hx
    obtain ⟨r', t', es, hx', he⟩ := closing_cases hq _ pace (u.waited _ q)
    cases hx'.symm.trans hx
    have hopened := ho.passage.trans (waited_passage u (pace.timeout u.clock) q)
    refine ⟨hfaultless (hopened.happened.trans he.happened) fun f hf => ?_, ?_⟩
    · obtain hf | hf := List.mem_append.mp hf
      · simp at hf
      · cases (he.devices _ hf).1
    · rintro rfl
      exact he.dozed ho (hw.trans hwait) rfl hpoll

/-! ### One frame after the other -/

/-- What the machine does in `k` frames without a key: its timers run down, and that is all. -/
structure Suspended (devices : Peripherals σ) (fuel : Nat) (paced : Bool) (s : Session σ) (k : Nat)
    (t : Session σ) : Prop where
  state : t.machine.state = if k = 0 then s.machine.state else s.machine.state.rested k
  waiting : t.machine.waiting = true
  instructions : t.machine.instructionCount = s.machine.instructionCount
  each : ∀ i < k, ∃ timeout,
    Happened (afterFrames devices fuel paced s i) (afterFrames devices fuel paced s (i + 1))
      (.polled :: .synced .none :: .awaited timeout ::
        ((if i < s.machine.state.sound.toNat then [.sounded] else []) ++
          [.ticked, .rendered s.machine.state.display]))

/-- The sound timer of a resting state runs out after as many ticks as it says. -/
theorem alarm_rested (a : State) (i : Nat) :
    alarm (a.rested i).sound = if i < a.sound.toNat then [.sounded] else [] := by
  have hsound := a.rested_sound i
  by_cases h : i < a.sound.toNat
  · rw [alarm, if_pos h, if_neg]
    intro hzero
    have hn : (a.rested i).sound.toNat = 0 := by rw [hzero]; rfl
    omega
  · rw [alarm, if_neg h, if_pos]
    exact UInt8.toNat_inj.mp (hsound.trans (Nat.sub_eq_zero_of_le (Nat.le_of_not_lt h)))

theorem Suspended.keyless {k : Nat} (h : Suspended devices fuel paced s k t) :
    { t.machine.state with keys := .none } = s.machine.state.rested k := by
  rw [h.state]
  cases k with
  | zero => exact s.machine.state.rested_zero.symm
  | succ k => rfl

theorem Suspended.succ {k : Nat} (h : Suspended devices fuel paced s k t) (hd : Dozed t u)
    (ht : afterFrames devices fuel paced s k = t) (hu : afterFrames devices fuel paced s (k + 1) = u) :
    Suspended devices fuel paced s (k + 1) u := by
  refine ⟨?_, hd.waiting, hd.instructions.trans h.instructions, fun i hi => ?_⟩
  · rw [hd.state, h.keyless, State.rested_tick, if_neg (Nat.succ_ne_zero k)]
  · by_cases hlast : i = k
    · subst hlast
      obtain ⟨timeout, hall⟩ := hd.happened
      have hsound : t.machine.state.sound = (s.machine.state.rested i).sound :=
        (congrArg State.sound h.keyless :)
      have hdisplay : t.machine.state.display = s.machine.state.display :=
        (congrArg State.display h.keyless :)
      rw [hsound, hdisplay, alarm_rested] at hall
      rw [ht, hu]
      exact ⟨timeout, hall⟩
    · exact h.each i (by omega)

theorem runFrames_suspended (hq : devices.Quiet) (hwait : s.machine.waiting = true) {k : Nat}
    (hnone : ∀ i < k, Keyless devices (afterFrames devices fuel paced s i))
    (hx : exec (runFrames devices fuel paced k) s = (.ok (), t)) :
    Suspended devices fuel paced s k t := by
  induction k generalizing t with
  | zero =>
    cases hx
    exact ⟨rfl, hwait, rfl, nofun⟩
  | succ k ih =>
    obtain ⟨_, v, hv, hx'⟩ | ⟨e, -, he⟩ := exec_bind_cases hx
    · have hafter : afterFrames devices fuel paced s k = v := afterFrames_eq hv
      have hsuspended := ih (fun i hi => hnone i (by omega)) hv
      have hkey := hnone k (Nat.lt_succ_self k)
      rw [hafter] at hkey
      have hdozed := (runFrame_dozed hq hsuspended.waiting hkey hx').2 rfl
      exact hsuspended.succ hdozed hafter (afterFrames_eq hx)
    · cases he

/-- No instruction faults in such frames, since none is executed. -/
theorem runFrames_faultless (hq : devices.Quiet) (hwait : s.machine.waiting = true) {k : Nat}
    (hnone : ∀ i < k, Keyless devices (afterFrames devices fuel paced s i)) :
    ∀ f, .faulted f ∉ since s (afterFrames devices fuel paced s k) := by
  induction k with
  | zero =>
    intro f hf
    have hzero : exec (runFrames devices fuel paced 0) s = (.ok (), s) := rfl
    rw [afterFrames_eq hzero, since_self] at hf
    cases hf
  | succ k ih =>
    have hbefore : ∀ i < k, Keyless devices (afterFrames devices fuel paced s i) :=
      fun i hi => hnone i (by omega)
    have ih := ih hbefore
    cases hv : exec (runFrames devices fuel paced k) s with
    | mk r v =>
      have hafter : afterFrames devices fuel paced s k = v := afterFrames_eq hv
      rw [hafter] at ih
      cases r with
      | error e =>
        rw [afterFrames_eq (runFrames_of_error hv (Nat.le_succ k))]
        exact ih
      | ok _ =>
        have hwait' := (runFrames_suspended hq hwait hbefore hv).waiting
        have hkey := hnone k (Nat.lt_succ_self k)
        rw [hafter] at hkey
        cases hx : exec (runFrame devices fuel paced) v with
        | mk r u =>
          rw [afterFrames_eq ((runFrames_succ hv).trans hx), since_frames_succ hq hv hx]
          intro f hf
          obtain hf | hf := List.mem_append.mp hf
          · exact ih f hf
          · exact (runFrame_dozed hq hwait' hkey hx).1 f hf

/-- Such frames come to their end, unless there is an obstacle. -/
theorem runFrames_suspended_outcome (hq : devices.Quiet) (hwait : s.machine.waiting = true) {k : Nat}
    (hnone : ∀ i < k, Keyless devices (afterFrames devices fuel paced s i)) :
    (∃ t, exec (runFrames devices fuel paced k) s = (.ok (), t)) ∨
      ∃ e t, exec (runFrames devices fuel paced k) s = (.error e, t) ∧
        Obstacle devices.Asks s e := by
  have hfaultless := runFrames_faultless hq hwait hnone
  cases hx : exec (runFrames devices fuel paced k) s with
  | mk r t =>
    rw [afterFrames_eq hx] at hfaultless
    obtain rfl | ⟨f, hf⟩ | ⟨e, rfl, he⟩ :=
      ((Does.runFrames devices.ask_asks fuel paced k).goes hx).outcome fun _ h => hq.of_asks h
    · exact .inl ⟨t, rfl⟩
    · exact absurd hf (hfaultless f)
    · exact .inr ⟨e, t, rfl, he⟩

/-! ### The frame in which a key is found -/

theorem Move.rates (h : Move devices asks s t) : t.machine.rates = s.machine.rates := by
  cases h with
  | aside es he htrace hmachine hdevices hscript => rw [hmachine]
  | reset h hrun hm =>
    rw [Machine.reset_eq_ok hm]
    rfl
  | _ => rfl

theorem Goes.rates (h : Goes devices asks s r t) : t.machine.rates = s.machine.rates := by
  induction h with
  | move hm _ ih => exact ih.trans hm.rates
  | leave _ _ ih => exact ih
  | _ => rfl

/-- Rates that had times for a frame have times for the next one. -/
theorem runFrames_pace (hq : devices.Quiet) {k : Nat} (hk : 1 ≤ k)
    (hx : exec (runFrames devices fuel paced k) s = (.ok (), t)) :
    ∃ pace, Pace.ofRates t.machine.rates paced t.clock = .ok pace := by
  obtain ⟨k, rfl⟩ : ∃ n, k = n + 1 := ⟨k - 1, by omega⟩
  obtain ⟨_, v, -, hx'⟩ | ⟨e, -, he⟩ := exec_bind_cases hx
  · have hrates : t.machine.rates = v.machine.rates :=
      ((Does.runFrame hq fuel paced).goes hx').rates
    rw [hrates]
    obtain ⟨e, hv, -⟩ | ⟨_, pace, -, ht⟩ :=
      Pace.ofRates_cases v.machine.rates paced paced v.clock t.clock
    · obtain ⟨e, hx'', -⟩ | ⟨pace, -, hv'⟩ := runFrame_cases devices fuel paced v
      · cases hx''.symm.trans hx'
      · cases hv.symm.trans hv'
    · exact ⟨pace, ht⟩
  · cases he

/-- The first instruction that the frame from `s` to `t` completed is the key wait.  The poll left the
keypad `p`, the wait found `q`, and `j` is the lowest key that was down then. -/
structure Resolved (s t : Session σ) (x : Fin 16) (w : UInt16) (p q : Keypad) (j : Fin 16) (a : State) :
    Prop where
  lowest : q.keys.get j = true ∧ ∀ i < j, q.keys.get i = false
  step : { s.machine.state with keys := q.keys }.step = .ok (a, w)
  completed : { s.machine.state with keys := q.keys }.waits a w = false
  state : a = { s.machine.state with keys := q.keys }.skip.setV x (UInt8.ofNat j)
  pc : a.pc.toNat = s.machine.state.pc.toNat + 2
  happened : ∃ timeout es n, Happened s t (.polled :: .synced p.keys :: .awaited timeout ::
      .synced q.keys :: .executed w :: es) ∧ a.Replay es t.machine.state n ∧
    t.machine.instructionCount = s.machine.instructionCount + 1 + n

/-- Whatever comes of an action, what is left of the frame after it completes no instruction. -/
theorem exec_before_closing (hq : devices.Quiet) (run : Act σ) (pace : Pace) {b : Act σ}
    (hx : exec b s = (r, u)) : ∃ r' t es,
      exec (do b; pace.sleepUntil pace.deadline; endFrame devices run) s = (r', t) ∧
        Happened u t es ∧ u.machine.state.Replay es t.machine.state 0 ∧
        t.machine.instructionCount = u.machine.instructionCount := by
  cases r with
  | error e => exact ⟨_, u, [], exec_bind_error hx _, .nothing rfl, .nil _, rfl⟩
  | ok _ =>
    obtain ⟨r', t, es, hx', he⟩ := closing_cases hq run pace u
    exact ⟨r', t, es, (exec_bind_ok hx _).trans hx', he.happened, he.replay, he.instructions⟩

/-- A burst that finds a key takes it, and then goes on with what is left of its instructions. -/
theorem exec_burst_answered (pace : Pace) {total : Nat} (htotal : 0 < total)
    (hwait : s.machine.waiting = true) {q : Keypad} (hs : s.scripted = .ok q)
    (hany : q.keys.any = true) {a : State} {w : UInt16}
    (hstep : { s.machine.state with keys := q.keys }.step = .ok (a, w))
    (hdone : { s.machine.state with keys := q.keys }.waits a w = false) :
    ∃ r t timeout es n, exec (burst pace total) s = (r, t) ∧
      Happened s t (.awaited timeout :: .synced q.keys :: .executed w :: es) ∧
      a.Replay es t.machine.state n ∧
      t.machine.instructionCount = s.machine.instructionCount + 1 + n := by
  let v := s.resumed (pace.timeout s.clock) q
  let y : Session σ := { v.log [.executed w] with machine := v.machine.stepped a w }
  have hy : exec Session.step v = (.ok true, y) := by
    have h := exec_step_ok (s := v) hstep
    rw [show v.machine.state.waits a w = false from hdone] at h
    exact h
  have hcount : y.machine.instructionCount = s.machine.instructionCount + 1 := by
    show _ + (if v.machine.state.waits a w then 0 else 1) = _
    rw [show v.machine.state.waits a w = false from hdone]
    rfl
  obtain ⟨z, hz, hsleep, hsteady, hm⟩ :=
    sleepUntil_cases pace (pace.start + Float.ofNat (0 + 1) * pace.period) y
  have hkeys : z.machine.state.keys = q.keys := hsteady.keys.trans (State.step_keys hstep)
  have hnowait : z.machine.waiting = false := by
    rw [hm]
    exact hdone
  have hroom : room total 1 z.machine.state.keys z.machine.waiting ≤ total := by
    rw [room_of_any total 1 (hkeys ▸ hany)]
    omega
  obtain ⟨r, t, es, n, ht, hd⟩ := enough pace total total 1 z htotal (by simp [hnowait]) hroom
  have hlog : ((s.log [.awaited (pace.timeout s.clock)]).log [.synced q.keys]).log [.executed w] =
      s.log [.awaited (pace.timeout s.clock), .synced q.keys, .executed w] := by
    rw [log_log, log_log]
    rfl
  have hhappened : Happened s y [.awaited (pace.timeout s.clock), .synced q.keys, .executed w] :=
    ⟨[.awaited _, .synced q.keys, .executed w], congrArg trace hlog, rfl⟩
  refine ⟨r, t, pace.timeout s.clock, es, n, ?_, ?_, ?_, ?_⟩
  · rw [exec_burst_resumed pace htotal hwait hs hany, stepAndRounds, exec_bind_ok hy]
    exact (exec_bind_ok hz _).trans ht
  · exact (hhappened.trans hsleep.happened).trans hd.passage.happened
  · have hreplay := hd.passage.replay
    rw [hm] at hreplay
    exact hreplay
  · rw [hd.passage.instructions, hm, hcount]

theorem runFrame_resolved (hq : devices.Quiet) (hwait : s.machine.waiting = true)
    (hpace : ∃ pace, Pace.ofRates s.machine.rates paced s.clock = .ok pace) {x : Fin 16} {w : UInt16}
    (hf : s.machine.state.fetch = .ok w) (hw : w.toNat = (Instruction.awaitKey x).word)
    {p q : Keypad} (hp : devices.polled s.devices s.machine.keypad = .ok p)
    (hs : p.scripted s.script = .ok q) (hany : q.keys.any = true) :
    ∃ r t j a, exec (runFrame devices fuel paced) s = (r, t) ∧ Resolved s t x w p q j a := by
  obtain ⟨j, hj⟩ := Option.isSome_iff_exists.mp (Keys.lowest?_isSome.trans hany)
  let b : State := { s.machine.state with keys := q.keys }
  obtain ⟨hstep, hdone⟩ := State.step_awaitKey (s := b) hf hw hj
  obtain ⟨pace, hpace⟩ := hpace
  obtain ⟨e, -, he⟩ | ⟨pace', hx, -⟩ := runFrame_cases devices fuel paced s
  · cases hpace.symm.trans he
  obtain ⟨e, t, -, -, he⟩ | ⟨p', u, ho, hu, hx'⟩ := pacedFrame_opens hq (run devices fuel none true) pace' s
  · cases hp.symm.trans he
  obtain rfl : p = p' := Except.ok.inj (hp.symm.trans ho.polled)
  have hb : { u.machine.state with keys := q.keys } = b := by
    rw [ho.state]
  rw [← hb] at hstep hdone
  obtain ⟨r, v, timeout, es, n, hburst, hhappened, hreplay, hcount⟩ :=
    exec_burst_answered pace' s.machine.rates.instructionsPerFrame_pos (hu.trans hwait)
      (ho.live.trans hs) hany hstep hdone
  obtain ⟨r', t, fs, hrest, hhappened', hreplay', hcount'⟩ :=
    exec_before_closing hq (run devices fuel none true) pace' hburst
  rw [hb] at hstep hdone hreplay
  refine ⟨r', t, j, b.skip.setV x (UInt8.ofNat j), (hx.trans hx').trans hrest, ?_⟩
  exact {
    lowest := Keys.lowest?_eq_some_iff.mp hj
    step := hstep
    completed := hdone
    state := rfl
    pc := State.skip_pc_toNat_of_fetch (s := b) hf
    happened := by
      refine ⟨timeout, es ++ fs, n, ?_, hreplay.append hreplay', ?_⟩
      · exact (ho.passage.happened.trans hhappened).trans hhappened'
      · rw [hcount', hcount, ho.passage.instructions] }

/-- **A key wait stands still** until a key is down when the wait of a frame is over.  In the frames before,
nothing happens but that the timers run down; they come to their end unless there is an obstacle. -/
theorem key_wait_stutters (hq : devices.Quiet) (fuel : Nat) (paced : Bool) {s : Session σ}
    (hwait : s.machine.waiting = true) {x : Fin 16} {w : UInt16}
    (hf : s.machine.state.fetch = .ok w) (hw : w.toNat = (Instruction.awaitKey x).word)
    {k : Nat} (hk : 1 ≤ k)
    (hnone : ∀ i < k, Keyless devices (afterFrames devices fuel paced s i)) :
    ((∃ t, exec (runFrames devices fuel paced k) s = (.ok (), t)) ∨
      ∃ e t, exec (runFrames devices fuel paced k) s = (.error e, t) ∧
        Obstacle devices.Asks s e) ∧
    ∀ t, exec (runFrames devices fuel paced k) s = (.ok (), t) →
      Suspended devices fuel paced s k t ∧ t.machine.state = s.machine.state.rested k ∧
      t.machine.frameCount = s.machine.frameCount + k ∧
      (since s t).countP Event.isRendered = k ∧
      ∀ p q, devices.polled t.devices t.machine.keypad = .ok p → p.scripted t.script = .ok q →
        -- a key that is down at the poll or pressed in the wait is found, if none is let go
        ((∀ c ∈ t.script.headD [], ∃ key, c = .press key) →
          p.keys.any = true ∨ t.script.headD [] ≠ [] → q.keys.any = true) ∧
        (q.keys.any = true →
          ∃ r u j a, exec (runFrame devices fuel paced) t = (r, u) ∧
            Resolved t u x w p q j a) := by
  refine ⟨runFrames_suspended_outcome hq hwait hnone, fun t hx => ?_⟩
  have hsuspended := runFrames_suspended hq hwait hnone hx
  have hstate : t.machine.state = s.machine.state.rested k := by
    rw [hsuspended.state, if_neg (by omega)]
  obtain ⟨hframes, hpictures⟩ := runFrames_completed hq hx
  refine ⟨hsuspended, hstate, hframes, ?_, fun p q hp hs => ⟨fun hcs hany => ?_, fun hany => ?_⟩⟩
  · rw [Event.countP_isRendered, hpictures, displays, List.length_map, List.length_range]
  · exact Keypad.any_of_presses hcs hs hany
  · have hfetch : t.machine.state.fetch = .ok w := by
      rw [hstate]
      exact hf
    exact runFrame_resolved hq hsuspended.waiting (runFrames_pace hq hk hx) hfetch hw hp hs hany

/-- A machine at a key wait.  The first wait finds no key, and in the second one two keys are pressed. -/
def dozing : Session Unit :=
  let s := twoPerFrame.after [.step]
  { s with
    machine := { s.machine with state := { s.machine.state with sound := 3 } }
    script := [[], [.press 9, .press 5]] }

theorem dozing_free (e : Failure) :
    ¬ Obstacle (Peripherals.none : Peripherals Unit).Asks dozing e := by
  intro h
  cases h with
  | request hc h => exact (@Peripherals.ask_none Unit fun _ => False).of_asks hc
  | @script cs c p e hcs hc h =>
    obtain ⟨i, rfl⟩ : ∃ i : Fin 16, c = .press i.val := by
      have hcs : cs ∈ ([[], [.press 9, .press 5]] : List (List Keypad.Change)) := hcs
      simp only [List.mem_cons, List.not_mem_nil, or_false] at hcs
      obtain rfl | rfl := hcs
      · cases hc
      · simp only [List.mem_cons, List.not_mem_nil, or_false] at hc
        obtain rfl | rfl := hc
        · exact ⟨9, rfl⟩
        · exact ⟨5, rfl⟩
    cases (Keypad.set_natCast p i true).symm.trans h
  | rates h => exact absurd h (by decide +kernel)
  | interval h => exact absurd h (by decide +kernel)

/-- The lower of the two keys is taken. -/
theorem key_wait_stutters_dozing : (Peripherals.none : Peripherals Unit).Quiet ∧
    dozing.machine.waiting = true ∧ dozing.machine.state.fetch = .ok 0xF00A ∧
    (0xF00A : UInt16).toNat = (Instruction.awaitKey 0).word ∧ 1 ≤ 1 ∧
    (∀ i < 1, Keyless .none (afterFrames .none 0 false dozing i)) ∧
    ∃ t, exec (runFrames .none 0 false 1) dozing = (.ok (), t) ∧
      t.machine.state = dozing.machine.state.rested 1 ∧
      ∃ p q r u j a, exec (runFrame .none 0 false) t = (r, u) ∧ Resolved t u 0 0xF00A p q j a ∧
        j = 5 := by
  have hquiet : (Peripherals.none : Peripherals Unit).Quiet := Peripherals.quiet_none
  have hwait : dozing.machine.waiting = true := by decide +kernel
  have hf : dozing.machine.state.fetch = .ok 0xF00A := by decide +kernel
  have hw : (0xF00A : UInt16).toNat = (Instruction.awaitKey 0).word := by decide
  have hup : dozing.machine.keypad.keys.any = false := by decide +kernel
  have hnone : ∀ i < 1, Keyless .none (afterFrames .none 0 false dozing i) := by
    intro i hi p hp
    obtain rfl : i = 0 := by omega
    obtain rfl : dozing.machine.keypad = p := Except.ok.inj hp
    refine ⟨hup, fun q hq => ?_⟩
    obtain rfl : dozing.machine.keypad = q := Except.ok.inj hq
    exact hup
  obtain ⟨hends, hall⟩ := key_wait_stutters hquiet 0 false hwait hf hw (Nat.le_refl 1) hnone
  obtain ⟨t, hx⟩ := hends.resolve_right fun ⟨e, _, _, he⟩ => dozing_free e he
  obtain ⟨-, hstate, -, -, hnext⟩ := hall t hx
  refine ⟨hquiet, hwait, hf, hw, Nat.le_refl 1, hnone, t, hx, hstate, ?_⟩
  have hpress : t.machine.keypad.scripted t.script =
      .ok { keys := (Keys.none.set 9 true).set 5 true } := by
    have ht : t = (exec (runFrame .none 0 false) dozing).2 := (congrArg Prod.snd hx).symm
    rw [ht, runFrame, exec_frame (by decide +kernel)]
    decide +kernel
  obtain ⟨-, hresolved⟩ := hnext t.machine.keypad _ rfl hpress
  obtain ⟨r, u, j, a, hx', h⟩ := hresolved (by decide +kernel)
  refine ⟨_, _, r, u, j, a, hx', h, ?_⟩
  have hlowest : ((Keys.none.set 9 true).set 5 true).lowest? = some j :=
    Keys.lowest?_eq_some_iff.mpr h.lowest
  have hfive : ((Keys.none.set 9 true).set 5 true).lowest? = some 5 := by decide +kernel
  exact Option.some.inj (hlowest.symm.trans hfive)

end Session

end Chip8
