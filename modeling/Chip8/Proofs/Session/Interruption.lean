import Chip8.Proofs.Session.Iterate
import Chip8.Proofs.Session.Operations

/-!
# Faults in the middle of a frame

An instruction that faults ends whatever is going on: the step, the frame, the run.  What was done
before it stays done, and nothing comes after it but lines of the log.

* `Halted f t`              the machine is stopped before an instruction that faults with `f`;
* `Goes.halted`             any action in which an instruction faults fails with that fault, and leaves
                            the machine like this;
* `Interrupted`             what there is to a frame that a fault ended: the poll and the burst up to
                            the instruction, no tick, no sound, no picture;
* `fault_commits_nothing`   what a fault does to a step, a frame and a run.
-/

namespace Chip8.Session

variable {σ : Type} {asks : Request → Prop} {devices : Peripherals σ} {s t u : Session σ}
  {r : Except Failure Unit} {f : Fault}

/-! ### The machine after a fault -/

/-- The machine is stopped, and its next instruction faults, however often it is tried. -/
structure Halted (f : Fault) (t : Session σ) : Prop where
  stopped : t.machine.running = false
  next : t.machine.state.step = .error f
  again : ∃ u, exec step t = (.error (.fault f), u) ∧ u.machine = t.machine

theorem Halted.ofNext (hstopped : t.machine.running = false)
    (hnext : t.machine.state.step = .error f) : Halted f t where
  stopped := hstopped
  next := hnext
  again := by
    obtain ⟨lines, hx⟩ := exec_step_error hnext
    refine ⟨_, hx, ?_⟩
    show { t.machine with running := false } = t.machine
    rw [← hstopped]

theorem Halted.left (h : Halted f t) : Halted f t.left := .ofNext rfl h.next

/-- A fault is told by the last session as well as by the trace. -/
theorem Goes.halted (h : Goes devices asks s r t) (hf : .faulted f ∈ since s t) :
    r = .error (.fault f) ∧ Halted f t := by
  refine ⟨(h.account.fault f hf).1, ?_⟩
  induction h with
  | done s | raise _ =>
    rw [since_self] at hf
    cases hf
  | @script s e h p =>
    let t : Session σ :=
      { s with script := s.script.tail, machine := { s.machine with keypad := p } }
    have hnone : since s t = [] := since_nil rfl
    rw [hnone] at hf
    cases hf
  | move hm hrest ih =>
    obtain ⟨es, htrace, -, hnone⟩ := hm.account
    rw [since_trans htrace hrest.account.trace, since_eq htrace] at hf
    exact ih ((List.mem_append.mp hf).resolve_left (hnone f))
  | @fault s g h lines =>
    rw [since_eq rfl] at hf
    have hg : f = g := by simpa using hf
    subst hg
    exact .ofNext rfl h
  | @leave h s t e hs ih =>
    obtain ⟨lines, htrace⟩ := t.left_trace
    rw [since_trans hs.account.trace htrace, since_eq htrace] at hf
    exact (ih ((List.mem_append.mp hf).resolve_right (by simp))).left

/-- Quiet devices raise no faults of their own, so a fault that an action fails with is told. -/
theorem Goes.told (hasks : ∀ q, asks q → q.isQuiet = true)
    (h : Goes devices asks s (.error (.fault f)) t) : .faulted f ∈ since s t := by
  generalize hr : Except.error (Failure.fault f) = r at h
  induction h with
  | done s | script => cases hr
  | move hm hrest ih =>
    obtain ⟨es, htrace, -⟩ := hm.account
    rw [since_trans htrace hrest.account.trace]
    exact List.mem_append_right _ (ih hr)
  | @fault s g h lines =>
    cases hr
    rw [since_eq rfl]
    exact List.mem_cons_self
  | raise h =>
    cases hr
    cases h with
    | asked h =>
      obtain h | h := h
      · cases hasks _ h
      · cases hasks _ h
  | leave h => cases hasks _ h

/-! ### A frame that a fault ended -/

/-- A frame that began in `s` was ended by the fault `f` in `t`: `p` is the live keypad after the
poll, `es` what the burst did until then, and `n` instructions were completed. -/
structure Interrupted (devices : Peripherals σ) (s t : Session σ) (f : Fault) (p : Keypad)
    (es : List Event) (n : Nat) : Prop where
  polled : devices.polled s.devices s.machine.keypad = .ok p
  happened : Happened s t (.polled :: .synced p.keys :: (es ++ [.faulted f]))
  course : Course (p.scripted s.script) (es ++ [.faulted f])
  faultless : ∀ g, .faulted g ∉ es
  replay : State.Replay { s.machine.state with keys := p.keys } es t.machine.state n
  instructions : t.machine.instructionCount = s.machine.instructionCount + n
  frames : t.machine.frameCount = s.machine.frameCount
  /-- The waiting flag and all the rest are as the steps of the burst left them. -/
  machine : t.machine =
    let m := { s.machine with state := { s.machine.state with keys := p.keys } }
    { es.foldl Machine.follow m with
      keypad := t.machine.keypad, running := false, frameCount := t.machine.frameCount }

/-- A fault that is told is the last thing but for remarks. -/
theorem FaultEnds.happened {es : List Event} (h : FaultEnds r (since s t)) (hs : Happened s t es)
    (hended : .ended ∉ es) (hf : .faulted f ∈ es) :
    r = .error (.fault f) ∧ ∃ fs, es = fs ++ [.faulted f] ∧ ∀ g, .faulted g ∉ fs := by
  obtain ⟨all, htrace, rfl⟩ := hs
  rw [since_eq htrace] at h
  obtain ⟨hr, pre, post, rfl, hpre, hpost⟩ := h f (List.mem_filter.mp hf).1
  refine ⟨hr, pre.filter (!·.isRemark), ?_, fun g hg => hpre g (List.mem_filter.mp hg).1⟩
  have hnone : post.filter (!·.isRemark) = [] := by
    refine List.filter_eq_nil_iff.mpr fun e he => ?_
    have htalk := hpost e he
    cases e with
    | printed text => simp [Event.isRemark]
    | ended => exact absurd (by simp [he, Event.isRemark]) hended
    | _ => cases htalk
  rw [List.filter_append, List.filter_cons_of_pos rfl, hnone]

theorem Happened.mem {es : List Event} (h : Happened s t es) {e : Event} (he : e ∈ since s t)
    (hremark : e.isRemark = false) : e ∈ es := by
  obtain ⟨all, htrace, rfl⟩ := h
  rw [since_eq htrace] at he
  exact List.mem_filter.mpr ⟨he, by simp [hremark]⟩

/-- A burst that ended with a fault, after the opening of a frame. -/
theorem interrupted_of_done {p : Keypad} {es : List Event} {total n : Nat} {awaits : Bool}
    {e : Failure} (ho : Opened devices s u p) (hd : Done total 0 awaits u (.error e) t es n)
    (haccount : Account s r t (since s t)) (hhalted : Halted f t) (hf : .faulted f ∈ since s t) :
    ∃ es n, Interrupted devices s t f p es n := by
  have hpass := ho.passage.trans hd.passage
  have hended : .ended ∉ [.polled, .synced p.keys] ++ es := by
    intro h
    simp only [List.mem_append, List.mem_cons, List.not_mem_nil, reduceCtorEq, or_false,
      false_or] at h
    obtain h | ⟨_, h⟩ | ⟨_, h⟩ := hd.course.mem h <;> cases h
  obtain ⟨-, fs, hfs, hnone⟩ :=
    haccount.fault.happened hpass.happened hended (hpass.happened.mem hf rfl)
  obtain ⟨gs, rfl, rfl⟩ :
      ∃ gs, fs = .polled :: .synced p.keys :: gs ∧ es = gs ++ [.faulted f] := by
    cases fs with
    | nil => simp at hfs
    | cons a fs =>
      cases fs with
      | nil => simp at hfs
      | cons b gs =>
        simp only [List.cons_append, List.nil_append, List.cons.injEq] at hfs
        obtain ⟨rfl, rfl, rfl⟩ := hfs
        exact ⟨gs, rfl, rfl⟩
  obtain ⟨a, k, l, hgs, hlast, rfl⟩ := hd.passage.replay.split
  obtain ⟨rfl, rfl⟩ : a = t.machine.state ∧ l = 0 := by
    cases hlast with
    | faulted _ h =>
      cases h
      exact ⟨rfl, rfl⟩
    | idle h _ => cases h
  exact ⟨gs, k, {
    polled := ho.polled
    happened := hpass.happened
    course := ho.live ▸ hd.course
    faultless := fun g hg =>
      hnone g (List.mem_cons_of_mem _ (List.mem_cons_of_mem _ hg))
    replay := ho.state ▸ hgs
    instructions := by
      rw [hpass.instructions]
      omega
    frames := hpass.frames
    machine := by
      have hmachine := haccount.machine
      obtain ⟨all, htrace, hall⟩ := hpass.happened
      rw [since_eq htrace, ← Machine.foldl_follow_filter, hall, ← List.append_assoc,
        List.foldl_append, List.foldl_append] at hmachine
      unfold Machine.Agrees at hmachine
      rw [hhalted.stopped] at hmachine
      exact hmachine }⟩

/-- **A fault interrupts a frame.** -/
theorem runFrame_interrupted (hq : devices.Quiet) {fuel : Nat} {paced : Bool}
    (h : exec (runFrame devices fuel paced) s = (r, t)) (hf : .faulted f ∈ since s t) :
    ∃ p es n, Interrupted devices s t f p es n := by
  have hgoes := (Does.runFrame hq fuel paced).goes h
  have haccount := hgoes.account
  obtain ⟨hr, hhalted⟩ := hgoes.halted hf
  obtain ⟨e, hx⟩ | ⟨r', t', es, hx, hframed⟩ := runFrame_framed hq fuel paced s
  · rw [hx] at h
    cases h
    cases hr
  · rw [hx] at h
    cases h
    cases hframed with
    | refused h => cases hr
    | @failed p _ _ _ _ _ ho hd => exact ⟨p, interrupted_of_done ho hd haccount hhalted hf⟩
    | ended ho hd he =>
      -- the burst came to its end, and no fault is told after it
      have hmem := ((ho.passage.happened.trans hd.passage.happened).trans he.happened).mem hf rfl
      simp only [List.mem_append, List.mem_cons, List.not_mem_nil, reduceCtorEq, or_false,
        false_or] at hmem
      obtain hmem | hmem := hmem
      · exact absurd hmem ((hd.completed rfl).2 f)
      · cases (he.devices _ hmem).1

/-! ### A run that a fault ended -/

variable {fuel : Nat} {paced : Bool} {limit : Option Int}

/-- The loop of a run after `k` frames: the fault ends one of those that follow. -/
theorem frames_interrupted (hq : devices.Quiet) {v : Session σ} :
    ∀ (left : Nat) {k : Nat} {u : Session σ},
      exec (runFrames devices fuel paced k) s = (.ok (), u) →
      exec (frames devices paced limit left k) u = (.error (.fault f), v) →
      ∃ l w, exec (runFrames devices fuel paced l) s = (.ok (), w) ∧
        exec (runFrame devices fuel paced) w = (.error (.fault f), v) := by
  intro left
  induction left with
  | zero =>
    intro k u _ hx
    cases hx
  | succ left ih =>
    intro k u hu hx
    cases hrun : u.machine.running with
    | false =>
      rw [frames_of_idle hrun] at hx
      cases hx
    | true =>
      cases hframe : exec (runFrame devices fuel paced) u with
      | mk r u' =>
        cases r with
        | error e =>
          rw [frames_of_error hq hrun hframe] at hx
          cases hx
          exact ⟨k, u, hu, hframe⟩
        | ok _ =>
          by_cases hremains : Remains limit k
          · rw [frames_of_next hq hrun hframe hremains] at hx
            exact ih ((runFrames_succ hu).trans hframe) hx
          · rw [frames_of_last hq hrun hframe hremains] at hx
            cases hx

theorem run_interrupted (hq : devices.Quiet) (fuel : Nat) {left : Nat}
    (h : exec (run devices left limit paced) s = (.error (.fault f), t)) :
    ∃ k v w, exec (runFrames devices fuel paced k) s.entered = (.ok (), v) ∧
      exec (runFrame devices fuel paced) v = (.error (.fault f), w) ∧ t = w.left := by
  cases hs : s.machine.running with
  | true =>
    rw [run, exec_guarded_running hs] at h
    cases h
  | false =>
    rw [run, exec_guarded_stopped hs] at h
    cases hx : exec (frames devices paced limit left 0) s.entered with
    | mk r w =>
      rw [hx] at h
      cases h
      obtain ⟨k, v, hv, hframe⟩ := frames_interrupted hq left (k := 0) rfl hx
      exact ⟨k, v, w, hv, hframe, rfl⟩

/-! ### What a fault does to each -/

theorem step_faulted {r : Except Failure Bool} (hx : exec step s = (r, t)) :
    (r = .error (.fault f) ↔ s.machine.state.step = .error f) ∧
    (r = .error (.fault f) → Halted f t ∧ t.machine = { s.machine with running := false }) := by
  cases hs : s.machine.state.step with
  | ok a =>
    rw [exec_step_ok hs] at hx
    cases hx
    exact ⟨⟨nofun, nofun⟩, nofun⟩
  | error g =>
    obtain ⟨lines, hx'⟩ := exec_step_error hs
    rw [hx'] at hx
    cases hx
    refine ⟨⟨fun h => by cases h; rfl, fun h => by cases h; rfl⟩, fun h => ?_⟩
    cases h
    exact ⟨.ofNext rfl hs, rfl⟩

theorem runFrame_faulted (hq : devices.Quiet)
    (hx : exec (runFrame devices fuel paced) s = (.error (.fault f), t)) :
    Halted f t ∧ ∃ p es n, Interrupted devices s t f p es n := by
  have hgoes := (Does.runFrame hq fuel paced).goes hx
  have hf := hgoes.told fun _ h => h
  exact ⟨(hgoes.halted hf).2, runFrame_interrupted hq hx hf⟩

theorem run_faulted (hq : devices.Quiet) (fuel : Nat) {left : Nat}
    (hx : exec (run devices left limit paced) s = (.error (.fault f), t)) :
    Halted f t ∧ ∃ k v w p es n, exec (runFrames devices fuel paced k) s.entered = (.ok (), v) ∧
      v.machine.frameCount = s.machine.frameCount + k ∧ Interrupted devices v w f p es n ∧
      t = w.left ∧ t.machine = w.machine := by
  obtain ⟨k, v, w, hv, hframe, rfl⟩ := run_interrupted hq fuel hx
  obtain ⟨hhalted, p, es, n, hi⟩ := runFrame_faulted hq hframe
  have hmachine : w.left.machine = w.machine := by
    show { w.machine with running := false } = w.machine
    rw [← hhalted.stopped]
  exact ⟨hhalted.left, k, v, w, p, es, n, hv, (runFrames_completed hq hv).1, hi, rfl, hmachine⟩

/-- **A fault commits nothing beyond the last good instruction.**  A step, a frame or a run fails with each
fault that is raised in it.  The machine is then stopped before the instruction that faulted, and nothing
of the frame came after it. -/
theorem fault_commits_nothing (hq : devices.Quiet) (fuel left : Nat) (limit : Option Int)
    (paced : Bool) (s : Session σ) (f : Fault) :
    (∀ r t, exec step s = (r, t) →
      (r = .error (.fault f) ↔ s.machine.state.step = .error f) ∧
      (r = .error (.fault f) → Halted f t ∧ t.machine = { s.machine with running := false })) ∧
    (∀ r t, exec (runFrame devices fuel paced) s = (r, t) →
      (.faulted f ∈ since s t → r = .error (.fault f)) ∧
      (r = .error (.fault f) → Halted f t ∧ ∃ p es n, Interrupted devices s t f p es n)) ∧
    (∀ r t, exec (run devices left limit paced) s = (r, t) →
      (.faulted f ∈ since s t → r = .error (.fault f)) ∧
      (r = .error (.fault f) → Halted f t ∧
        ∃ k v w p es n, exec (runFrames devices fuel paced k) s.entered = (.ok (), v) ∧
          v.machine.frameCount = s.machine.frameCount + k ∧ Interrupted devices v w f p es n ∧
          t = w.left ∧ t.machine = w.machine)) := by
  refine ⟨fun r t hx => step_faulted hx, fun r t hx => ⟨fun hf => ?_, fun hr => ?_⟩,
    fun r t hx => ⟨fun hf => ?_, fun hr => ?_⟩⟩
  · exact (((Does.runFrame hq fuel paced).goes hx).halted hf).1
  · subst hr
    exact runFrame_faulted hq hx
  · exact (((Does.run (ask_anything devices) trivial left limit paced).goes hx).halted hf).1
  · subst hr
    exact run_faulted hq fuel hx

/-- The second instruction returns from a call that was never made. -/
def underflowing : Session Unit :=
  { twoPerFrame with
    machine := { twoPerFrame.machine with
      state := (State.initial ⟨0, 0⟩ false).after [.load [0x60, 0x01, 0x00, 0xEE]] } }

/-- A run that this program interrupts. -/
theorem fault_commits_nothing_underflowing :
    let f : Fault := { cause := .stackUnderflow, instruction := some 0x00EE, pc := some 0x202 }
    (Peripherals.none : Peripherals Unit).Quiet ∧
    ∃ r t, exec (run .none 1 none false) underflowing = (r, t) ∧
      .faulted f ∈ since underflowing t ∧ r = .error (.fault f) ∧ Halted f t ∧
      t.machine.instructionCount = 1 := by
  intro f
  have hquiet : (Peripherals.none : Peripherals Unit).Quiet := Peripherals.quiet_none
  have hframe := exec_frame (s := underflowing.entered) (by decide +kernel) .none
    (run .none 0 none true) false
  have hfail : (exec (runFrame .none 0 false) underflowing.entered).1.isOk = false := by
    rw [runFrame, hframe]
    decide +kernel
  have htold : f ∈ (since underflowing
      (exec (runFrame .none 0 false) underflowing.entered).2.left).filterMap Event.fault? := by
    rw [runFrame, hframe]
    decide +kernel
  have hcount :
      (exec (runFrame .none 0 false) underflowing.entered).2.left.machine.instructionCount = 1 := by
    rw [runFrame, hframe]
    decide +kernel
  cases hx : exec (runFrame .none 0 false) underflowing.entered with
  | mk r w =>
    rw [hx] at hfail htold hcount
    cases r with
    | ok _ => cases hfail
    | error e =>
      have hrun : exec (run .none 1 none false) underflowing = (.error e, w.left) := by
        rw [run, exec_guarded_stopped rfl, frames_of_error hquiet rfl hx]
      have hf : .faulted f ∈ since underflowing w.left := Event.mem_filterMap_fault?.mp htold
      obtain ⟨-, -, h⟩ := fault_commits_nothing hquiet 0 1 none false underflowing f
      have hr := (h _ _ hrun).1 hf
      exact ⟨hquiet, _, w.left, hrun, hf, hr, ((h _ _ hrun).2 hr).1, hcount⟩

end Chip8.Session
