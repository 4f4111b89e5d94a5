import Chip8.Proofs.Runs
import Chip8.Proofs.Session.Devices

/-!
# Frames

A frame among quiet devices, whatever the program and the keys are and whatever is done to them while
it waits.

* `Opened`, `Ended`, `Framed`   the beginning of a frame, its end, and how it goes;
* `Completed`  what a frame that came to its end is in terms of steps of the state, copied keys and
               one tick;
* `Bounded`    what any frame has at most: one wait, one copy of the keys that ended it, and one
               step more than it has instructions.

The main statements are `runFrame_completed` and `runFrame_bounded`.
-/

namespace Chip8.Session

variable {σ : Type}

/-! ### The end of a frame -/

/-- The sound of a frame that ends with this sound timer. -/
def alarm (sound : UInt8) : List Event := if sound = 0 then [] else [.sounded]

/-- The frame that was in progress in `s` came to its end in `t`, or to the failure `r` on the way. -/
structure Ended (s : Session σ) (r : Except Failure Unit) (t : Session σ) (es : List Event) :
    Prop where
  happened : Happened s t es
  replay : s.machine.state.Replay es t.machine.state 0
  instructions : t.machine.instructionCount = s.machine.instructionCount
  devices : ∀ e ∈ es, e.isStep = false ∧ e.isAwaited = false ∧ e.synced? = none
  frames : t.machine.frameCount ≤ s.machine.frameCount + 1
  renders : es.countP Event.isRendered ≤ 1
  ends : r ≠ .error .unfinished
  completed : r = .ok () →
    es = alarm s.machine.state.sound ++ [.ticked, .rendered s.machine.state.display] ∧
      t.machine.state = s.machine.state.tick ∧ t.machine.waiting = s.machine.waiting ∧
      t.machine.frameCount = s.machine.frameCount + 1

theorem mem_alarm {sound : UInt8} {e : Event} (h : e ∈ alarm sound) : e = .sounded := by
  rw [alarm] at h
  split at h
  · cases h
  · exact List.mem_singleton.mp h

theorem countP_alarm (sound : UInt8) : (alarm sound).countP Event.isRendered = 0 := by
  refine List.countP_eq_zero.mpr fun e he => ?_
  rw [mem_alarm he]
  exact Bool.false_ne_true

theorem soundTone_quiet {devices : Peripherals σ} (hq : devices.Quiet) (run : Act σ)
    (s : Session σ) : ∃ t, Untouched s t (alarm s.machine.state.sound) ∧
      (exec (soundTone devices run) s = (.ok (), t) ∨
      ∃ e, exec (soundTone devices run) s = (.error (.keypad e), t)) := by
  rw [soundTone, exec_get_bind]
  by_cases h : s.machine.state.sound = 0
  · rw [alarm, if_pos h, h, if_neg (by decide)]
    exact ⟨s, ⟨.nothing rfl, rfl, rfl⟩, .inl rfl⟩
  · have hpos : 0 < s.machine.state.sound := UInt8.pos_iff_ne_zero.mpr h
    rw [alarm, if_neg h, if_pos hpos]
    obtain ⟨t, hu, -, ⟨hx, -⟩ | ⟨e, hx, -⟩⟩ :=
      call_quiet run .sounded rfl s (hq.sound _ s.devices)
    · exact ⟨t, hu, .inl hx⟩
    · exact ⟨t, hu, .inr ⟨e, hx⟩⟩

theorem renderDisplay_quiet {devices : Peripherals σ} (hq : devices.Quiet) (run : Act σ)
    (s : Session σ) : ∃ t, Untouched s t [.rendered s.machine.state.display] ∧
      (exec (renderDisplay devices run) s = (.ok (), t) ∨
      ∃ e, exec (renderDisplay devices run) s = (.error (.keypad e), t)) := by
  let display := s.machine.state.display
  obtain ⟨t, hu, -, ⟨hx, -⟩ | ⟨e, hx, -⟩⟩ :=
    call_quiet run (.rendered display) rfl s (hq.render display _ s.devices)
  · exact ⟨t, hu, .inl hx⟩
  · exact ⟨t, hu, .inr ⟨e, hx⟩⟩

/-- Only the statistics can fail, if the interval between them is no number. -/
theorem countFrame_cases (s : Session σ) :
    ∃ t, Happened s t [] ∧ t.machine = { s.machine with frameCount := s.machine.frameCount + 1 } ∧
      (exec countFrame s = (.ok (), t) ∨ ∃ e, exec countFrame s = (.error (.misuse e), t)) := by
  let m : Machine := { s.machine with frameCount := s.machine.frameCount + 1 }
  rw [countFrame, exec_bind_ok (exec_onMachine _ s), exec_get_bind]
  dsimp only
  cases s.logger.frameStats s.clock m.frameCount m.stats m.settings.logInterval with
  | error e => exact ⟨{ s with machine := m }, .nothing rfl, rfl, .inr ⟨e, rfl⟩⟩
  | ok l =>
    obtain ⟨logger, entries⟩ := l
    dsimp only
    rw [exec_bind_ok (exec_modify _ _), exec_print]
    refine ⟨_, ?_, ?_, .inl rfl⟩
    · exact .remarks ((logger.lines s.clock entries).map .printed)
        (by simp [Event.isRemark]) rfl
    · rfl

/-- Sounding and rendering are no steps, no waits, and no copies of the keypad. -/
theorem devices_of_mem {sound : UInt8} (display : Display) {e : Event}
    (h : e ∈ alarm sound ++ [.ticked, .rendered display]) :
    e.isStep = false ∧ e.isAwaited = false ∧ e.synced? = none := by
  simp only [List.mem_append, List.mem_cons, List.not_mem_nil, or_false] at h
  obtain h | rfl | rfl := h
  · rw [mem_alarm h]
    exact ⟨rfl, rfl, rfl⟩
  · exact ⟨rfl, rfl, rfl⟩
  · exact ⟨rfl, rfl, rfl⟩

theorem endFrame_cases {devices : Peripherals σ} (hq : devices.Quiet) (run : Act σ)
    (s : Session σ) : ∃ r t es, exec (endFrame devices run) s = (r, t) ∧ Ended s r t es := by
  rw [endFrame]
  obtain ⟨t, ht, hx⟩ := soundTone_quiet hq run s
  have hsound : Passage s t (alarm s.machine.state.sound) 0 := ht.passage fun e he => by
    rw [mem_alarm he]
    rfl
  obtain hx | ⟨e, hx⟩ := hx
  · let u : Session σ := { t with machine := t.machine.tick }.log [.ticked]
    have htick : Passage t u [.ticked] 0 := ⟨⟨[.ticked], rfl, rfl⟩, .ticked (.nil _), rfl, rfl⟩
    have hdisplay : u.machine.state.display = s.machine.state.display := by
      show t.machine.state.display = _
      rw [ht.state]
    rw [exec_bind_ok hx, exec_bind_ok (exec_tick t)]
    obtain ⟨v, hv, hx⟩ := renderDisplay_quiet hq run u
    rw [hdisplay] at hv
    have hrender : Passage s v (alarm s.machine.state.sound ++ [.ticked, .rendered _]) 0 :=
      hsound.trans (htick.trans (hv.passage fun e he => by rw [List.mem_singleton.mp he]; rfl))
    obtain hx | ⟨e, hx⟩ := hx
    · obtain ⟨w, hw, hm, hx'⟩ := countFrame_cases v
      have hwait : v.machine.waiting = s.machine.waiting := hv.waiting.trans ht.waiting
      have hstate : w.machine.state = s.machine.state.tick := by
        rw [hm, ← ht.state]
        exact hv.state
      have hended (r : Except Failure Unit) (hr : r ≠ .error .unfinished) : Ended s r w
          (alarm s.machine.state.sound ++ [.ticked, .rendered s.machine.state.display]) := {
        happened := List.append_nil (alarm _ ++ [_, _]) ▸ hrender.happened.trans hw
        replay := by
          rw [hm]
          exact hrender.replay
        instructions := by
          rw [hm]
          exact hrender.instructions
        devices := fun _ => devices_of_mem _
        frames := by
          rw [hm]
          exact Nat.le_of_eq (congrArg (· + 1) hrender.frames)
        renders := by
          rw [List.countP_append, countP_alarm]
          exact Nat.le_refl 1
        ends := hr
        completed := fun _ => by
          refine ⟨rfl, hstate, ?_, ?_⟩
          · rw [hm]
            exact hwait
          · rw [hm]
            exact congrArg (· + 1) hrender.frames }
      obtain hx' | ⟨e, hx'⟩ := hx'
      · exact ⟨_, w, _, (exec_bind_ok hx _).trans hx', hended _ nofun⟩
      · exact ⟨_, w, _, (exec_bind_ok hx _).trans hx', hended _ nofun⟩
    · refine ⟨_, v, _, exec_bind_error hx _, hrender.happened, hrender.replay,
        hrender.instructions, fun _ => devices_of_mem _, ?_, ?_, nofun, nofun⟩
      · rw [hrender.frames]
        exact Nat.le_succ _
      · rw [List.countP_append, countP_alarm]
        exact Nat.le_refl 1
  · refine ⟨_, t, _, exec_bind_error hx _, hsound.happened, hsound.replay, hsound.instructions,
      fun _ he => devices_of_mem s.machine.state.display (List.mem_append_left _ he), ?_, ?_,
      nofun, nofun⟩
    · rw [hsound.frames]
      exact Nat.le_succ _
    · rw [countP_alarm]
      exact Nat.zero_le 1

/-- A frame may sleep before its end. -/
theorem closing_cases {devices : Peripherals σ} (hq : devices.Quiet) (run : Act σ) (pace : Pace)
    (s : Session σ) : ∃ r t es,
      exec (do pace.sleepUntil pace.deadline; endFrame devices run) s = (r, t) ∧ Ended s r t es := by
  obtain ⟨u, hs, hp, -, hm⟩ := sleepUntil_cases pace pace.deadline s
  obtain ⟨r, t, es, hx, he⟩ := endFrame_cases hq run u
  refine ⟨r, t, es, (exec_bind_ok hs _).trans hx, ?_⟩
  exact {
    happened := hp.happened.trans he.happened
    replay := hm ▸ he.replay
    instructions := hm ▸ he.instructions
    devices := he.devices
    frames := hm ▸ he.frames
    renders := he.renders
    ends := he.ends
    completed := hm ▸ he.completed }

/-! ### The whole frame -/

/-- The burst of a frame that began in `s` is about to begin in `u`: the devices have been polled,
and the keypad `p` that they left is copied. -/
structure Opened (devices : Peripherals σ) (s u : Session σ) (p : Keypad) : Prop where
  polled : devices.polled s.devices s.machine.keypad = .ok p
  passage : Passage s u [.polled, .synced p.keys] 0
  state : u.machine.state = { s.machine.state with keys := p.keys }
  live : u.scripted = p.scripted s.script

/-- How a frame goes: a poll is refused, the burst fails, or the frame comes to its end. -/
inductive Framed (devices : Peripherals σ) (s : Session σ) :
    Except Failure Unit → Session σ → List Event → Prop
  | refused {e : Keypad.Error} {t : Session σ} (h : Passage s t [.polled] 0) :
      Framed devices s (.error (.keypad e)) t [.polled]
  | failed {p : Keypad} {u t : Session σ} {e : Failure} {es : List Event} {n : Nat}
      (ho : Opened devices s u p)
      (hd : Done s.machine.rates.instructionsPerFrame 0 u.machine.waiting u (.error e) t es n) :
      Framed devices s (.error e) t (.polled :: .synced p.keys :: es)
  | ended {p : Keypad} {u v t : Session σ} {r : Except Failure Unit} {es fs : List Event} {n : Nat}
      (ho : Opened devices s u p)
      (hd : Done s.machine.rates.instructionsPerFrame 0 u.machine.waiting u (.ok ()) v es n)
      (he : Ended v r t fs) : Framed devices s r t (.polled :: .synced p.keys :: (es ++ fs))

/-- A frame begins with the poll and the copy of the keypad, unless the keypad refuses the poll. -/
theorem pacedFrame_opens {devices : Peripherals σ} (hq : devices.Quiet) (run : Act σ)
    (pace : Pace) (s : Session σ) :
    (∃ e t, exec (pacedFrame devices run pace) s = (.error (.keypad e), t) ∧
      Passage s t [.polled] 0 ∧ devices.polled s.devices s.machine.keypad = .error e) ∨
    ∃ p u, Opened devices s u p ∧ u.machine.waiting = s.machine.waiting ∧
      exec (pacedFrame devices run pace) s = exec (do
        burst pace s.machine.rates.instructionsPerFrame
        pace.sleepUntil pace.deadline
        endFrame devices run) u := by
  rw [pacedFrame, exec_get_bind]
  dsimp only
  obtain ⟨t, ht, -, ⟨hx, hp⟩ | ⟨e, hx, hp⟩⟩ :=
    call_quiet run .polled rfl s (hq.poll _ s.devices)
  · let u : Session σ :=
      { t.log [.synced t.machine.keypad.keys] with machine := t.machine.syncKeypad }
    have ho : Opened devices s u t.machine.keypad := {
      polled := hp
      passage := (ht.passage (by simp [Event.isIdle])).trans (n := 0)
        ⟨⟨[.synced _], rfl, rfl⟩, .synced (.nil _), rfl, rfl⟩
      state := congrArg (fun a : State => { a with keys := t.machine.keypad.keys }) ht.state
      live := congrArg t.machine.keypad.scripted ht.script }
    refine .inr ⟨_, u, ho, ht.waiting, ?_⟩
    rw [exec_bind_ok hx, exec_bind_ok (exec_syncKeypad t)]
  · exact .inl ⟨e, t, exec_bind_error hx _, ht.passage (by simp [Event.isIdle]), hp⟩

theorem pacedFrame_framed {devices : Peripherals σ} (hq : devices.Quiet) (run : Act σ)
    (pace : Pace) (s : Session σ) :
    ∃ r t es, exec (pacedFrame devices run pace) s = (r, t) ∧ Framed devices s r t es := by
  obtain ⟨e, t, hx, hp, -⟩ | ⟨p, u, ho, -, hx⟩ := pacedFrame_opens hq run pace s
  · exact ⟨_, t, _, hx, .refused hp⟩
  · obtain ⟨r, v, es, n, hx', hd⟩ := burst_done pace s.machine.rates.instructionsPerFrame_pos u
    rw [hx]
    cases r with
    | error e => exact ⟨_, v, _, exec_bind_error hx' _, .failed ho hd⟩
    | ok _ =>
      obtain ⟨r, w, fs, hx'', he⟩ := closing_cases hq run pace v
      exact ⟨r, w, _, (exec_bind_ok hx' _).trans hx'', .ended ho hd he⟩

/-- Rates without a time are refused before anything happens. -/
theorem runFrame_cases (devices : Peripherals σ) (fuel : Nat) (paced : Bool) (s : Session σ) :
    (∃ e, exec (runFrame devices fuel paced) s = (.error (.overflow e), s) ∧
      Pace.ofRates s.machine.rates paced s.clock = .error e) ∨
    ∃ pace, exec (runFrame devices fuel paced) s =
      exec (pacedFrame devices (run devices fuel none true) pace) s ∧
        Pace.ofRates s.machine.rates paced s.clock = .ok pace := by
  rw [runFrame, frame, exec_get_bind]
  cases Pace.ofRates s.machine.rates paced s.clock with
  | error e => exact .inl ⟨e, rfl, rfl⟩
  | ok pace => exact .inr ⟨pace, rfl, rfl⟩

theorem runFrame_framed {devices : Peripherals σ} (hq : devices.Quiet) (fuel : Nat) (paced : Bool)
    (s : Session σ) : (∃ e, exec (runFrame devices fuel paced) s = (.error (.overflow e), s)) ∨
      ∃ r t es, exec (runFrame devices fuel paced) s = (r, t) ∧ Framed devices s r t es := by
  obtain ⟨e, hx, -⟩ | ⟨pace, hx, -⟩ := runFrame_cases devices fuel paced s
  · exact .inl ⟨e, hx⟩
  · rw [hx]
    exact .inr (pacedFrame_framed hq _ pace s)

theorem Framed.ends {devices : Peripherals σ} {s t : Session σ} {r : Except Failure Unit}
    {es : List Event} (h : Framed devices s r t es) : r ≠ .error .unfinished := by
  cases h with
  | refused => nofun
  | failed ho hd => exact hd.ends
  | ended ho hd he => exact he.ends

/-- A frame does not need any frames to be allowed. -/
theorem runFrame_ends {devices : Peripherals σ} (hq : devices.Quiet) (fuel : Nat) (paced : Bool)
    (s : Session σ) : (exec (runFrame devices fuel paced) s).1 ≠ .error .unfinished := by
  obtain ⟨e, hx⟩ | ⟨r, t, es, hx, hf⟩ := runFrame_framed hq fuel paced s
  · rw [hx]
    nofun
  · rw [hx]
    exact hf.ends

/-- A completed frame from `s` to `t`, in terms of steps of the state: `p` is the live keypad after
the poll, `es` what the burst did, `a` the state after it, and `n` instructions were completed. -/
structure Completed (devices : Peripherals σ) (s t : Session σ) (p : Keypad) (es : List Event)
    (a : State) (n : Nat) : Prop where
  polled : devices.polled s.devices s.machine.keypad = .ok p
  happened : Happened s t (.polled :: .synced p.keys ::
    (es ++ (alarm a.sound ++ [.ticked, .rendered a.display])))
  course : Course (p.scripted s.script) es
  faultless : ∀ f, Event.faulted f ∉ es
  replay : State.Replay { s.machine.state with keys := p.keys } es a n
  state : t.machine.state = a.tick
  instructions : t.machine.instructionCount = s.machine.instructionCount + n
  within : n ≤ s.machine.rates.instructionsPerFrame
  waiting : t.machine.waiting = true ↔ n < s.machine.rates.instructionsPerFrame
  frames : t.machine.frameCount = s.machine.frameCount + 1

theorem Framed.completed {devices : Peripherals σ} {s t : Session σ} {es : List Event}
    (h : Framed devices s (.ok ()) t es) : ∃ p es a n, Completed devices s t p es a n := by
  cases h with
  | @ended p u v _ _ es fs n ho hd he =>
    obtain ⟨rfl, hstate, hwaiting, hframes⟩ := he.completed rfl
    obtain ⟨hwait, hfault⟩ := hd.completed rfl
    rw [Nat.zero_add] at hwait
    exact ⟨p, es, v.machine.state, n, {
      polled := ho.polled
      happened := (ho.passage.happened.trans hd.passage.happened).trans he.happened
      course := ho.live ▸ hd.course
      faultless := hfault
      replay := ho.state ▸ hd.passage.replay
      state := hstate
      instructions := by
        rw [he.instructions, hd.passage.instructions, ho.passage.instructions, Nat.add_zero]
      within := Nat.zero_add n ▸ hd.within
      waiting := hwaiting ▸ hwait
      frames := by rw [hframes, hd.passage.frames, ho.passage.frames] }⟩

theorem framed_of_runFrame {devices : Peripherals σ} (hq : devices.Quiet) {fuel : Nat}
    {paced : Bool} {s t : Session σ} (h : exec (runFrame devices fuel paced) s = (.ok (), t)) :
    ∃ es, Framed devices s (.ok ()) t es := by
  obtain ⟨e, hx⟩ | ⟨r, u, es, hx, hf⟩ := runFrame_framed hq fuel paced s
  · rw [hx] at h
    cases h
  · rw [hx] at h
    cases h
    exact ⟨es, hf⟩

/-- **A completed frame is a run of steps and a tick.** -/
theorem runFrame_completed {devices : Peripherals σ} (hq : devices.Quiet) {fuel : Nat}
    {paced : Bool} {s t : Session σ} (h : exec (runFrame devices fuel paced) s = (.ok (), t)) :
    ∃ p es a n, Completed devices s t p es a n := by
  obtain ⟨es, hf⟩ := framed_of_runFrame hq h
  exact hf.completed

/-- Two instructions a frame, and a program that waits for a key before it goes on. -/
def twoPerFrame : Session Unit where
  machine :=
    { settings := { logInterval := .int 0 }
      rates := { frequency := 4, fps := 2 }
      rng := ⟨0, 0⟩
      state := (State.initial ⟨0, 0⟩ false).after [.load [0xF0, 0x0A, 0x60, 0x07]] }
  logger := { name := "" }
  devices := ()
  script := [[.press 5]]

/-- Devices that let go of all keys when they are polled. -/
def releasing : Peripherals Unit :=
  { Peripherals.none with poll := fun _ d => (d, [fun _ _ => some (.keypad .clear)]) }

theorem quiet_releasing : releasing.Quiet where
  poll _ _ turn hturn _ d q hq := by
    rw [List.mem_singleton.mp hturn] at hq
    cases hq
    rfl
  sound _ _ := nofun
  render _ _ _ := nofun

/-- The key comes while the frame waits for it. -/
theorem exec_twoPerFrame : ∃ t, exec (runFrame releasing 1 false) twoPerFrame = (.ok (), t) ∧
    t.machine.instructionCount = 2 ∧ t.trace.toList.countP Event.isStep = 3 := by
  rw [runFrame, exec_frame (by decide +kernel)]
  refine ⟨_, exec_eq_of_isOk ?_, ?_⟩
  · decide +kernel
  · decide +kernel

theorem runFrame_completed_twoPerFrame : releasing.Quiet ∧
    ∃ t, exec (runFrame releasing 1 false) twoPerFrame = (.ok (), t) ∧
      ∃ p es a n, Completed releasing twoPerFrame t p es a n ∧ n = 2 := by
  obtain ⟨t, hx, hcount, -⟩ := exec_twoPerFrame
  obtain ⟨p, es, a, n, h⟩ := runFrame_completed quiet_releasing hx
  have hn : t.machine.instructionCount = 0 + n := h.instructions
  exact ⟨quiet_releasing, t, hx, p, es, a, n, h, by omega⟩

/-- What there is to a frame at most: the events before its burst, those of the burst, and those
after it. -/
structure Bounded (total : Nat) (s : Session σ) (r : Except Failure Unit) (t : Session σ)
    (opening burst closing : List Event) : Prop where
  happened : Happened s t (opening ++ burst ++ closing)
  opens : ∃ keys : Keys, opening <+: [.polled, .synced keys]
  closes : ∀ e ∈ closing, e.isStep = false ∧ e.isAwaited = false ∧ e.synced? = none
  ends : r ≠ .error .unfinished
  waits : burst.countP Event.isAwaited ≤ 1
  copies : burst.filterMap Event.synced? = [] ∨
    ∃ keys : Keys, burst.filterMap Event.synced? = [keys] ∧ keys.any = true
  steps : burst.countP Event.isStep ≤ total + 1
  /-- Whatever comes after a wait that ended with a key sees the keys that were copied then. -/
  same : ∀ (es mid fs : List Event) (timeout : Float) (keys : Keys) (e : Event),
    burst = es ++ .awaited timeout :: .synced keys :: (mid ++ e :: fs) →
      ∃ a m n,
        s.machine.state.Replay (opening ++ es ++ .awaited timeout :: .synced keys :: mid) a m ∧
          a.keys = keys ∧ a.Replay (e :: (fs ++ closing)) t.machine.state n

/-- Nothing is copied after the keys that ended a wait, so they are what the state has. -/
theorem Course.same {live : Except Keypad.Error Keypad} {s t : State}
    {opening burst closing es mid fs : List Event} {timeout : Float} {keys : Keys} {e : Event}
    {n : Nat} (h : Course live burst) (hr : s.Replay (opening ++ burst ++ closing) t n)
    (hb : burst = es ++ .awaited timeout :: .synced keys :: (mid ++ e :: fs)) :
    ∃ a m n, s.Replay (opening ++ es ++ .awaited timeout :: .synced keys :: mid) a m ∧
      a.keys = keys ∧ a.Replay (e :: (fs ++ closing)) t n := by
  have hsplit : opening ++ burst ++ closing =
      (opening ++ es ++ .awaited timeout :: .synced keys :: mid) ++ e :: (fs ++ closing) := by
    rw [hb]
    simp
  rw [hsplit] at hr
  obtain ⟨a, m, n, h1, h2, -⟩ := hr.split
  have hcopies : (burst.filterMap Event.synced?).length ≤ 1 := by
    obtain h | ⟨keys, h, -⟩ := h.copies <;> simp [h]
  have hmid : mid.filterMap Event.synced? = [] := by
    rw [hb] at hcopies
    simp only [List.filterMap_append, List.filterMap_cons, Event.synced?, List.length_append,
      List.length_cons] at hcopies
    exact List.eq_nil_of_length_eq_zero (by omega)
  refine ⟨a, m, n, h1, ?_, h2⟩
  rw [h1.keys, List.filterMap_append, List.filterMap_cons, List.filterMap_cons, hmid]
  simp [Event.synced?]

theorem Bounded.ofCourse (live : Except Keypad.Error Keypad) {total n : Nat} {s t : Session σ}
    {r : Except Failure Unit} {opening burst closing : List Event}
    (hhappened : Happened s t (opening ++ burst ++ closing))
    (hr : s.machine.state.Replay (opening ++ burst ++ closing) t.machine.state n)
    (h : Course live burst) (hopens : ∃ keys : Keys, opening <+: [.polled, .synced keys])
    (hcloses : ∀ e ∈ closing, e.isStep = false ∧ e.isAwaited = false ∧ e.synced? = none)
    (hends : r ≠ .error .unfinished) (hsteps : burst.countP Event.isStep ≤ total + 1) :
    Bounded total s r t opening burst closing where
  happened := hhappened
  opens := hopens
  closes := hcloses
  ends := hends
  waits := h.waits
  copies := h.copies
  steps := hsteps
  same _ _ _ _ _ _ hb := h.same hr hb

/-- **One wait a frame.** -/
theorem runFrame_bounded {devices : Peripherals σ} (hq : devices.Quiet) (fuel : Nat)
    (paced : Bool) (s : Session σ) :
    (∃ r t opening burst closing, exec (runFrame devices fuel paced) s = (r, t) ∧
      Bounded s.machine.rates.instructionsPerFrame s r t opening burst closing) ∧
    ∀ (pace : Pace) (n : Nat), s.machine.rates.instructionsPerFrame + 1 ≤ n →
      (burst pace s.machine.rates.instructionsPerFrame : Act σ) =
          rounds pace s.machine.rates.instructionsPerFrame n 0 ∧
        ∀ u : Session σ, (exec (rounds pace s.machine.rates.instructionsPerFrame n 0) u).1 ≠
          .error .unfinished := by
  constructor
  · obtain ⟨e, hx⟩ | ⟨r, t, es, hx, hf⟩ := runFrame_framed hq fuel paced s
    · refine ⟨_, s, [], [], [], hx, ?_⟩
      exact .ofCourse s.scripted (.nothing rfl) (.nil _) (.straight nofun)
        ⟨.none, List.nil_prefix⟩ nofun nofun (Nat.zero_le _)
    · refine ⟨r, t, ?_⟩
      cases hf with
      | refused h =>
        refine ⟨[.polled], [], [], hx, ?_⟩
        exact .ofCourse s.scripted h.happened h.replay (.straight nofun)
          ⟨.none, _, rfl⟩ nofun nofun (Nat.zero_le _)
      | @failed p _ _ _ es _ ho hd =>
        have hp := ho.passage.trans hd.passage
        rw [← List.append_nil (_ ++ es)] at hp
        refine ⟨[.polled, .synced p.keys], es, [], hx, ?_⟩
        exact .ofCourse _ hp.happened hp.replay hd.course ⟨p.keys, [], rfl⟩ nofun hd.ends
          (Nat.le_trans hd.steps (room_zero_le _ _ _))
      | @ended p _ _ _ _ es fs _ ho hd he =>
        have hp := ho.passage.trans hd.passage
        refine ⟨[.polled, .synced p.keys], es, fs, hx, ?_⟩
        exact .ofCourse _ (hp.happened.trans he.happened) (hp.replay.append he.replay) hd.course
          ⟨p.keys, [], rfl⟩ he.devices he.ends (Nat.le_trans hd.steps (room_zero_le _ _ _))
  · intro pace n hn
    refine ⟨burst_eq_rounds pace s.machine.rates.instructionsPerFrame_pos hn, fun u => ?_⟩
    obtain ⟨r, t, es, k, hx, hd⟩ :=
      rounds_end pace s.machine.rates.instructionsPerFrame_pos hn u
    rw [hx]
    exact hd.ends

/-- The bound on the steps is reached. -/
theorem runFrame_bounded_twoPerFrame : releasing.Quiet ∧
    (∃ r t opening burst closing, exec (runFrame releasing 1 false) twoPerFrame = (r, t) ∧
      Bounded 2 twoPerFrame r t opening burst closing ∧
        t.trace.toList.countP Event.isStep = 2 + 1) ∧
    ∀ (pace : Pace) (n : Nat), 2 + 1 ≤ n → (burst pace 2 : Act Unit) = rounds pace 2 n 0 ∧
      ∀ u : Session Unit, (exec (rounds pace 2 n 0) u).1 ≠ .error .unfinished := by
  obtain ⟨t, hx, -, hsteps⟩ := exec_twoPerFrame
  obtain ⟨⟨r, u, opening, burst, closing, hu, hb⟩, hends⟩ :=
    runFrame_bounded quiet_releasing 1 false twoPerFrame
  rw [hx] at hu
  cases hu
  exact ⟨quiet_releasing, ⟨_, t, opening, burst, closing, hx, hb, hsteps⟩, hends⟩

end Chip8.Session
