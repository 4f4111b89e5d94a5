import Chip8.Proofs.Session.Alike
import Chip8.Proofs.Session.Loop
import Chip8.Proofs.Session.Outcome
import Chip8.Proofs.Session.Recording
import Mathlib.Data.Nat.Find
import Mathlib.Order.Bounds.Basic

/-!
# A run is frames one after the other

Among quiet devices a run does what as many single frames do, up to the first frame in which somebody
stops the machine, or up to the limit.

* `runFrames`, `afterFrames`   frames outside a run, and the session after them;
* `Ends`                       the frames with which a run may end;
* `Iterated`                   what a run of `m` frames has in common with `m` single frames;
* `run_iterates`               every run that somebody stops, or that has a limit, is of this kind,
                               and a stop before it does not matter for its end.

The loop is compared with the single frames by induction on the fuel (`frames_iterate`).  The two
sessions stay `Alike`: the running flag is up in the one and down in the other.
-/

namespace Chip8

namespace Event

/-- What does not count in an event is not about the picture in it. -/
theorem filterMap_picture? (timed : Bool) (es : List Event) :
    (es.filterMap (bare? timed)).filterMap picture? = es.filterMap picture? := by
  rw [List.filterMap_filterMap]
  congr 1
  funext e
  cases e <;> cases timed <;> rfl

theorem countP_isSounded_bare (timed : Bool) (es : List Event) :
    (es.filterMap (bare? timed)).countP isSounded = es.countP isSounded := by
  induction es with
  | nil => rfl
  | cons e es ih =>
    rw [List.filterMap_cons]
    cases e <;> cases timed <;> simp [bare?, isSounded, List.countP_cons, ih]

/-- Stops and faults are left as they are, and nothing else becomes one. -/
theorem mem_filterMap_bare {e : Event} (he : e = .stopped ∨ ∃ f, e = .faulted f) (timed : Bool)
    (es : List Event) : e ∈ es.filterMap (bare? timed) ↔ e ∈ es := by
  have hself : e.bare? timed = some e := by
    obtain rfl | ⟨f, rfl⟩ := he <;> rfl
  constructor
  · intro h
    obtain ⟨e', hmem, hbare⟩ := List.mem_filterMap.mp h
    have heq : e' = e := by
      obtain rfl | ⟨f, rfl⟩ := he <;> cases e' <;> cases timed <;> cases hbare <;> rfl
    exact heq ▸ hmem
  · exact fun h => List.mem_filterMap.mpr ⟨e, h, hself⟩

end Event

namespace Session

variable {σ : Type} {asks : Request → Prop} {timed : Bool}

/-! ### Single frames -/

/-- Frames outside a run, one after the other.  `fuel` is for the runs that a device asks for. -/
def runFrames (devices : Peripherals σ) (fuel : Nat) (paced : Bool) : (n : Nat) → Act σ
  | 0 => pure ()
  | n + 1 => do
    runFrames devices fuel paced n
    runFrame devices fuel paced

/-- The session after `n` frames, or after one that failed. -/
def afterFrames (devices : Peripherals σ) (fuel : Nat) (paced : Bool) (s : Session σ) (n : Nat) :
    Session σ := (exec (runFrames devices fuel paced n) s).2

variable {devices : Peripherals σ} {fuel fuel' : Nat} {paced paced' : Bool} {s t u v : Session σ}
  {k m n : Nat}

theorem afterFrames_eq {r : Except Failure Unit}
    (h : exec (runFrames devices fuel paced n) s = (r, t)) :
    afterFrames devices fuel paced s n = t := by
  rw [afterFrames, h]

theorem runFrames_succ (h : exec (runFrames devices fuel paced n) s = (.ok (), t)) :
    exec (runFrames devices fuel paced (n + 1)) s = exec (runFrame devices fuel paced) t :=
  exec_bind_ok h _

/-- After a failure there are no more frames. -/
theorem runFrames_of_error {e : Failure}
    (h : exec (runFrames devices fuel paced n) s = (.error e, t)) (hnm : n ≤ m) :
    exec (runFrames devices fuel paced m) s = (.error e, t) := by
  induction hnm with
  | refl => exact h
  | step _ ih => exact exec_bind_error ih _

theorem Does.runFrames (h : devices.Ask asks) (fuel : Nat) (paced : Bool) (n : Nat) :
    Does devices asks (runFrames devices fuel paced n) := by
  induction n with
  | zero => exact .pure ()
  | succ n ih => exact ih.bind fun _ => .runFrame h fuel paced

theorem since_frames_succ (hq : devices.Quiet) {r : Except Failure Unit}
    (h : exec (runFrames devices fuel paced n) s = (.ok (), t))
    (hx : exec (runFrame devices fuel paced) t = (r, u)) : since s u = since s t ++ since t u :=
  since_trans ((Does.runFrames hq fuel paced n).goes h).account.trace
    ((Does.runFrame hq fuel paced).goes hx).account.trace

theorem runFrames_alike (hq : devices.Quiet) (hpaced : timed = true → paced = paced')
    (S T : Array Event) (n : Nat) : Coupled (Alike timed S T)
      (runFrames devices fuel paced n) (runFrames devices fuel' paced' n) := by
  induction n with
  | zero => exact .pure ()
  | succ n ih => exact ih.bind fun _ => frame_alike hq _ _ hpaced S T

theorem Alike.since_eq (h : Alike timed s.trace t.trace u v) :
    (since s u).filterMap (Event.bare? timed) = (since t v).filterMap (Event.bare? timed) :=
  SameSince.since_eq h.traces

/-- In sessions that are alike, the same happens in each frame. -/
theorem since_afterFrames (hq : devices.Quiet) (hpaced : timed = true → paced = paced')
    (h : s.bare timed = t.bare timed) (n : Nat) :
    (since (afterFrames devices fuel paced s n)
      (afterFrames devices fuel paced s (n + 1))).filterMap (Event.bare? timed) =
    (since (afterFrames devices fuel' paced' t n)
      (afterFrames devices fuel' paced' t (n + 1))).filterMap (Event.bare? timed) := by
  obtain ⟨hr, halike⟩ := runFrames_alike hq hpaced s.trace t.trace n s t (.begin h)
  rw [afterFrames, afterFrames, afterFrames, afterFrames]
  cases hs : exec (runFrames devices fuel paced n) s with
  | mk r u =>
    cases ht : exec (runFrames devices fuel' paced' n) t with
    | mk r' v =>
      rw [hs, ht] at hr halike
      have hr : r = r' := hr
      subst hr
      cases r with
      | error e =>
        rw [runFrames_of_error hs (Nat.le_succ n), runFrames_of_error ht (Nat.le_succ n),
          since_self, since_self]
      | ok _ =>
        rw [runFrames_succ hs, runFrames_succ ht]
        have hframe := frame_alike hq (run devices fuel none true) (run devices fuel' none true)
          hpaced u.trace v.trace u v (.begin halike.bare)
        exact hframe.2.since_eq

/-! ### The last frame of a run -/

/-- A run may end with the frame `k`, the first one being the frame 1: it is the last that is allowed,
or somebody stops the machine in it. -/
def Ends (devices : Peripherals σ) (fuel : Nat) (paced : Bool) (s : Session σ) (limit : Option Int)
    (k : Nat) : Prop :=
  limit = some (k : Int) ∨ ∃ i, k = i + 1 ∧ .stopped ∈
    since (afterFrames devices fuel paced s i) (afterFrames devices fuel paced s (i + 1))

variable {limit : Option Int}

/-- Whether a run may end with a frame does not depend on what does not count. -/
theorem ends_congr (hq : devices.Quiet) (hpaced : timed = true → paced = paced')
    (h : s.bare timed = t.bare timed) :
    Ends devices fuel paced s limit k ↔ Ends devices fuel' paced' t limit k := by
  have hstop (i : Nat) := Event.mem_filterMap_bare (e := .stopped) (.inl rfl) timed
    (since (afterFrames devices fuel paced s i) (afterFrames devices fuel paced s (i + 1)))
  have hstop' (i : Nat) := Event.mem_filterMap_bare (e := .stopped) (.inl rfl) timed
    (since (afterFrames devices fuel' paced' t i) (afterFrames devices fuel' paced' t (i + 1)))
  refine or_congr Iff.rfl (exists_congr fun i => and_congr Iff.rfl ?_)
  rw [← hstop, ← hstop', since_afterFrames hq hpaced h i]

theorem exists_ends (hlimit : ∀ n, limit = some n → 1 ≤ n)
    (hstop : limit = none → ∃ i, .stopped ∈
      since (afterFrames devices fuel paced s i) (afterFrames devices fuel paced s (i + 1))) :
    ∃ m, IsLeast {k | Ends devices fuel paced s limit k} m := by
  classical
  have hex : ∃ k, Ends devices fuel paced s limit k := by
    cases limit with
    | none =>
      obtain ⟨i, hi⟩ := hstop rfl
      exact ⟨i + 1, .inr ⟨i, rfl, hi⟩⟩
    | some n =>
      have hn : ((n.toNat : Nat) : Int) = n := Int.toNat_of_nonneg (by have := hlimit n rfl; omega)
      exact ⟨n.toNat, .inl (congrArg some hn.symm)⟩
  exact ⟨Nat.find hex, Nat.find_spec hex, fun k hk => Nat.find_min' hex hk⟩

/-! ### The loop -/

/-- A frame in sessions that are alike, one of them running: it runs on unless somebody stops the
machine in the frame of the other. -/
theorem runFrame_alike (hq : devices.Quiet) (fuel : Nat) (paced : Bool) {S T : Array Event}
    (h : Alike true S T u v) :
    ∃ r u' v', exec (runFrame devices fuel paced) u = (r, u') ∧
      exec (runFrame devices fuel paced) v = (r, v') ∧ Alike true S T u' v' ∧
      (r = .ok () → u.machine.running = true →
        (u'.machine.running = true ↔ .stopped ∉ since v v')) := by
  have hframe (S T : Array Event) : Coupled (Alike true S T)
      (runFrame devices fuel paced) (runFrame devices fuel paced) :=
    frame_alike hq _ _ (fun _ => rfl) S T
  cases hx : exec (runFrame devices fuel paced) u with
  | mk r u' =>
    cases hy : exec (runFrame devices fuel paced) v with
    | mk r' v' =>
      obtain ⟨hr, halike⟩ := hframe S T u v h
      have hsince := (hframe u.trace v.trace u v (.begin h.bare)).2.since_eq
      rw [hx, hy] at hr halike hsince
      have hr : r = r' := hr
      subst hr
      refine ⟨r, u', v', rfl, rfl, halike, fun hok hrun => ?_⟩
      subst hok
      rw [((Does.runFrame hq fuel paced).goes hx).running_iff fun _ h => h,
        ← Event.mem_filterMap_bare (.inl rfl) true (since u u'), hsince,
        Event.mem_filterMap_bare (.inl rfl)]
      exact and_iff_right hrun

/-- Before the last frame of a run its limit is not reached. -/
theorem remains_of_lt (hlimit : ∀ n, limit = some n → 1 ≤ n)
    (hends : IsLeast {k | Ends devices fuel paced s limit k} m) (hk : k + 1 < m) :
    Remains limit k := by
  intro n hn
  have hpos := hlimit n hn
  have hcast : ((n.toNat : Nat) : Int) = n := Int.toNat_of_nonneg (by omega)
  have hle : m ≤ n.toNat := hends.2 (.inl (hcast.symm ▸ hn))
  omega

/-- The loop after `k` frames, in a session that is like the one after `k` single frames.  The last
frame is still to come. -/
theorem frames_iterate (hq : devices.Quiet) (hlimit : ∀ n, limit = some n → 1 ≤ n)
    (hends : IsLeast {k | Ends devices fuel paced s limit k} m) {S T : Array Event} :
    ∀ (left : Nat) {k : Nat} {u v : Session σ}, k < m → m < left + k →
      exec (runFrames devices fuel paced k) s = (.ok (), v) → Alike true S T u v →
      u.machine.running = true →
      ∃ r w x, exec (frames devices paced limit left k) u = (r, w) ∧
        exec (runFrames devices fuel paced m) s = (r, x) ∧ Alike true S T w x := by
  intro left
  induction left with
  | zero => intros; omega
  | succ left ih =>
    intro k u v hk hleft hv halike hrun
    obtain ⟨r, u', v', hx, hy, halike', hstop⟩ := runFrame_alike hq fuel paced halike
    have hnext := (runFrames_succ hv).trans hy
    cases r with
    | error e =>
      exact ⟨_, u', v', frames_of_error hq hrun hx left k, runFrames_of_error hnext hk, halike'⟩
    | ok _ =>
      have hstop := hstop rfl hrun
      have hafter : afterFrames devices fuel paced s k = v := afterFrames_eq hv
      have hafter' : afterFrames devices fuel paced s (k + 1) = v' := afterFrames_eq hnext
      by_cases hlast : k + 1 = m
      · subst hlast
        refine ⟨.ok (), u', v', ?_, hnext, halike'⟩
        by_cases hremains : Remains limit k
        · -- the limit is not reached, so the frame ends the run because of a stop
          obtain ⟨left, rfl⟩ : ∃ n, left = n + 1 := ⟨left - 1, by omega⟩
          have hmem : .stopped ∈ since v v' := by
            obtain hlim | ⟨i, hi, hmem⟩ := hends.1
            · have := hremains _ hlim
              omega
            · obtain rfl : k = i := Nat.succ.inj hi
              rw [hafter, hafter'] at hmem
              exact hmem
          have hidle : u'.machine.running = false := by
            rw [← Bool.not_eq_true, hstop, not_not]
            exact hmem
          rw [frames_of_next hq hrun hx hremains]
          exact frames_of_idle hidle left (k + 1)
        · exact frames_of_last hq hrun hx hremains left
      · have hmore : ¬ Ends devices fuel paced s limit (k + 1) := fun h => by
          have := hends.2 h
          omega
        have hrun' : u'.machine.running = true := hstop.mpr fun hmem =>
          hmore (.inr ⟨k, rfl, by rw [hafter, hafter']; exact hmem⟩)
        rw [frames_of_next hq hrun hx (remains_of_lt hlimit hends (by omega))]
        exact ih (by omega) (by omega) hnext halike' hrun'

/-! ### The frames that were completed -/

/-- A frame shows one picture, and that is the display which it leaves. -/
theorem Completed.picture {p : Keypad} {es : List Event} {a : State}
    (h : Completed devices s t p es a n) :
    (since s t).filterMap Event.picture? = [t.machine.state.display] := by
  obtain ⟨all, htrace, hall⟩ := h.happened
  have hremarks : all.filterMap Event.picture? =
      (all.filter (!·.isRemark)).filterMap Event.picture? := by
    rw [List.filterMap_filter]
    congr 1
    funext e
    cases e <;> rfl
  have hburst : es.filterMap Event.picture? = [] :=
    List.filterMap_eq_nil_iff.mpr fun e he => Event.picture?_eq_none (h.course.not_isRendered e he)
  have halarm : (alarm a.sound).filterMap Event.picture? = [] :=
    List.filterMap_eq_nil_iff.mpr fun e he => by rw [mem_alarm he]; rfl
  rw [since_eq htrace, hremarks, hall, h.state, List.filterMap_cons_none rfl,
    List.filterMap_cons_none rfl, List.filterMap_append, List.filterMap_append, hburst, halarm]
  rfl

/-- The displays at the ends of `n` frames. -/
def displays (devices : Peripherals σ) (fuel : Nat) (paced : Bool) (s : Session σ) (n : Nat) :
    List Display :=
  (List.range n).map fun i => (afterFrames devices fuel paced s (i + 1)).machine.state.display

/-- As many pictures as frames, each of them the display after its frame. -/
theorem runFrames_completed (hq : devices.Quiet)
    (h : exec (runFrames devices fuel paced n) s = (.ok (), t)) :
    t.machine.frameCount = s.machine.frameCount + n ∧
    (since s t).filterMap Event.picture? = displays devices fuel paced s n := by
  induction n generalizing t with
  | zero =>
    cases h
    exact ⟨rfl, by rw [since_self]; rfl⟩
  | succ n ih =>
    obtain ⟨_, v, hv, hx⟩ | ⟨e, -, he⟩ := exec_bind_cases h
    · obtain ⟨hframes, hpictures⟩ := ih hv
      obtain ⟨es', hf⟩ := framed_of_runFrame hq hx
      obtain ⟨p, es, a, l, hc⟩ := hf.completed
      refine ⟨by rw [hc.frames, hframes, Nat.add_assoc], ?_⟩
      rw [since_frames_succ hq hv hx, List.filterMap_append, hpictures, hc.picture, displays,
        displays, List.range_succ, List.map_append, List.map_singleton, afterFrames_eq h]
    · cases he

/-! ### The run -/

/-- A run from `s` to `t` came to the result `r`, and so do `m` single frames.  The session is the
one after them, but for the trace, and the machine is stopped; the events `es` between its beginning
and its end are theirs. -/
structure Iterated (devices : Peripherals σ) (fuel : Nat) (paced : Bool) (s : Session σ) (m : Nat)
    (r : Except Failure Unit) (t : Session σ) (es : List Event) : Prop where
  result : (exec (runFrames devices fuel paced m) s).1 = r
  session : t =
    let v := afterFrames devices fuel paced s m
    { v with machine := { v.machine with running := false }, trace := t.trace }
  ran : Ran s t es
  events : es.filterMap (Event.bare? true) =
    (since s (afterFrames devices fuel paced s m)).filterMap (Event.bare? true)
  frames : r = .ok () → t.machine.frameCount = s.machine.frameCount + m
  pictures : r = .ok () → es.filterMap Event.picture? = displays devices fuel paced s m
  /-- A recorder among the devices was given the display at the end of each frame. -/
  recorded : ∀ recorder : σ → Recorder, devices.Records recorder → r = .ok () →
    recorder t.devices = (recorder s.devices).extend (displays devices fuel paced s m)
      (es.countP Event.isSounded)
  /-- Without a fault there are all frames, unless the keypad refuses a change or a setting is of no
  use. -/
  complete : (∀ f, .faulted f ∉ es) →
    r = .ok () ∨ ∃ e, r = .error e ∧ Obstacle devices.Asks s e

theorem entered_alike (s : Session σ) : Alike true s.entered.trace s.trace s.entered s :=
  .begin rfl

/-- The loop came to a session that is like the one after the single frames; now the run is left. -/
theorem iterated_of_alike {r : Except Failure Unit} {w x : Session σ} (hq : devices.Quiet)
    (hsingle : exec (runFrames devices fuel paced m) s = (r, x))
    (halike : Alike true s.entered.trace s.trace w x) :
    ∃ es, Iterated devices fuel paced s m r w.left es := by
  obtain ⟨es, fs, hw, hx, hevents⟩ := halike.traces
  have hafter : afterFrames devices fuel paced s m = x := afterFrames_eq hsingle
  have hsince : since s x = fs := since_eq hx
  have hgoes := (Does.runFrames devices.ask_asks fuel paced m).goes hsingle
  have hpictures : es.filterMap Event.picture? = fs.filterMap Event.picture? := by
    rw [← Event.filterMap_picture? true es, hevents, Event.filterMap_picture?]
  have hdevices : w.left.devices = x.devices := by
    rw [halike.eq_of_timed]
    rfl
  exact ⟨es, {
    result := by rw [hsingle]
    session := by
      rw [hafter]
      exact congrArg (fun u : Session σ => { u with
        machine := { u.machine with running := false }
        trace := w.left.trace }) halike.eq_of_timed
    ran := by
      obtain ⟨starting, hstart⟩ := s.entered_trace
      obtain ⟨ending, hend⟩ := w.left_trace
      refine ⟨starting, ending, ?_⟩
      rw [hend, hw, hstart]
      simp
    events := by rw [hafter, hsince, hevents]
    frames := fun hr => by
      subst hr
      have hcount : w.left.machine.frameCount = x.machine.frameCount := by
        rw [halike.eq_of_timed]
        rfl
      rw [hcount, (runFrames_completed hq hsingle).1]
    pictures := fun hr => by
      subst hr
      rw [hpictures, ← hsince, (runFrames_completed hq hsingle).2]
    recorded := fun recorder hrec hr => by
      subst hr
      have hsounds : es.countP Event.isSounded = fs.countP Event.isSounded := by
        rw [← Event.countP_isSounded_bare true es, hevents, Event.countP_isSounded_bare]
      rw [hdevices, hgoes.recorder_eq hrec, Recorder.after, (runFrames_completed hq hsingle).2,
        hsince, hsounds]
    complete := fun hnone => by
      obtain hr | ⟨f, hf⟩ | hr := hgoes.outcome fun _ h => hq.of_asks h
      · exact .inl hr
      · rw [hsince, ← Event.mem_filterMap_bare (.inr ⟨f, rfl⟩) true, ← hevents,
          Event.mem_filterMap_bare (.inr ⟨f, rfl⟩)] at hf
        exact absurd hf (hnone f)
      · exact .inr hr }⟩

/-- **A run is frames one after the other**, exactly as many as it takes until its limit or the first stop in
it, and a stop before it plays no part.  The devices see the live keys and themselves, and not the running
flag, by which alone they could tell a run from its frames. -/
theorem run_iterates (hq : devices.Quiet) (fuel : Nat) (paced : Bool) {s : Session σ}
    (hs : s.machine.running = false) {limit : Option Int} (hlimit : ∀ n, limit = some n → 1 ≤ n)
    (hstop : limit = none → ∃ i, .stopped ∈
      since (afterFrames devices fuel paced s i) (afterFrames devices fuel paced s (i + 1))) :
    ∃ m, IsLeast {k | Ends devices fuel paced s limit k} m ∧
      IsLeast {k | Ends devices fuel paced (exec stop s).2 limit k} m ∧
      ∀ left, m < left → ∃ r t es, exec (run devices left limit paced) s = (r, t) ∧
        Iterated devices fuel paced s m r t es := by
  obtain ⟨m, hends⟩ := exists_ends hlimit hstop
  have hstopped : (exec stop s).2.bare false = s.bare false := by
    rw [exec_stop]
    rfl
  have hsame : {k | Ends devices fuel paced (exec stop s).2 limit k} =
      {k | Ends devices fuel paced s limit k} :=
    Set.ext fun k => ends_congr hq (fun _ => rfl) hstopped
  refine ⟨m, hends, hsame ▸ hends, fun left hleft => ?_⟩
  have hpos : 0 < m := by
    obtain hlim | ⟨i, rfl, -⟩ := hends.1
    · have := hlimit m hlim
      omega
    · exact Nat.succ_pos i
  have hzero : exec (runFrames devices fuel paced 0) s = (.ok (), s) := rfl
  obtain ⟨r, w, x, hloop, hsingle, halike⟩ := frames_iterate hq hlimit hends left hpos hleft hzero
    (entered_alike s) rfl
  obtain ⟨es, hi⟩ := iterated_of_alike hq hsingle halike
  refine ⟨r, w.left, es, ?_, hi⟩
  rw [run, exec_guarded_stopped hs, hloop]

/-- A recorder, beside devices that stop the machine when they are to render the display. -/
def quitting : Peripherals (Recorder × Unit) :=
  Peripherals.recording
    { Peripherals.none with render := fun _ _ d => (d, [fun _ _ => some .stop]) }

theorem ask_quitting : quitting.Ask (· = .stop) := by
  refine Peripherals.Ask.recording ⟨fun _ _ => nofun, fun _ _ => nofun, ?_⟩
  intro _ _ _ turn hturn _ _ q hq
  rw [List.mem_singleton.mp hturn] at hq
  exact (Option.some.inj hq).symm

theorem quiet_quitting : quitting.Quiet := ask_quitting.mono fun _ h => h ▸ rfl

def filmed : Session (Recorder × Unit) where
  machine := looping.machine
  logger := looping.logger
  devices := ({}, ())

theorem filmed_free (e : Failure) : ¬ Obstacle quitting.Asks filmed e := by
  intro h
  cases h with
  | request hc h => cases ask_quitting.of_asks hc
  | script hcs hc h => cases hcs
  | rates h => exact absurd h (by decide +kernel)
  | interval h => exact absurd h (by decide +kernel)

/-- A run without a limit has one frame if somebody stops the machine in it, and one display is
recorded. -/
theorem run_iterates_filmed : quitting.Quiet ∧ filmed.machine.running = false ∧
    (∀ n, (none : Option Int) = some n → 1 ≤ n) ∧
    .stopped ∈ since (afterFrames quitting 0 false filmed 0)
      (afterFrames quitting 0 false filmed 1) ∧
    ∀ left, 1 < left → ∃ t es, exec (run quitting left none false) filmed = (.ok (), t) ∧
      Iterated quitting 0 false filmed 1 (.ok ()) t es ∧
      t.devices.1.frames = #[(afterFrames quitting 0 false filmed 1).machine.state.display] := by
  have hone : afterFrames quitting 0 false filmed 1 =
      (exec (runFrame quitting 0 false) filmed).2 := by
    have hzero : exec (runFrames quitting 0 false 0) filmed = (.ok (), filmed) := rfl
    rw [afterFrames, runFrames_succ hzero]
  have hstop : .stopped ∈ since (afterFrames quitting 0 false filmed 0)
      (afterFrames quitting 0 false filmed 1) := by
    have hgate : .stopped ∈ (since filmed
        (exec (runFrame quitting 0 false) filmed).2).filterMap Event.gate? := by
      rw [runFrame, exec_frame (by decide +kernel)]
      decide +kernel
    rw [hone]
    obtain ⟨e, he, hgate⟩ := List.mem_filterMap.mp hgate
    cases e with
    | stopped => exact he
    | observed running => cases running <;> cases hgate
    | _ => cases hgate
  have hnone : (since filmed
      (exec (runFrame quitting 0 false) filmed).2).filterMap Event.fault? = [] := by
    rw [runFrame, exec_frame (by decide +kernel)]
    decide +kernel
  have hlimit : ∀ n, (none : Option Int) = some n → 1 ≤ n := fun n h => by cases h
  refine ⟨quiet_quitting, rfl, hlimit, hstop, fun left hleft => ?_⟩
  obtain ⟨m, hends, -, h⟩ :=
    run_iterates quiet_quitting 0 false rfl hlimit fun _ => ⟨0, hstop⟩
  obtain rfl : m = 1 := by
    have hle : m ≤ 1 := hends.2 (.inr ⟨0, rfl, hstop⟩)
    have hpos : m ≠ 0 := by
      rintro rfl
      obtain h | ⟨i, h, -⟩ := hends.1 <;> cases h
    omega
  obtain ⟨r, t, es, hx, hi⟩ := h left hleft
  have hnofault : ∀ f, .faulted f ∉ es := fun f hf => by
    rw [← Event.mem_filterMap_bare (.inr ⟨f, rfl⟩) true, hi.events,
      Event.mem_filterMap_bare (.inr ⟨f, rfl⟩), hone, ← Event.mem_filterMap_fault?, hnone] at hf
    cases hf
  obtain rfl | ⟨e, -, he⟩ := hi.complete hnofault
  · refine ⟨t, es, hx, hi, ?_⟩
    rw [hi.recorded Prod.fst (Peripherals.records_recording _) rfl]
    rfl
  · exact absurd he (filmed_free e)

end Session

end Chip8
