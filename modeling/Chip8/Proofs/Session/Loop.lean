import Chip8.Proofs.Session.Account
import Chip8.Proofs.Session.Frames
import Chip8.Proofs.Session.Lockstep

/-!
# The loop of a run

A run goes through frames while the machine runs, and looks at its limit after each of them.

* `frames_of_idle`, `frames_of_error`, `frames_of_last`, `frames_of_next`
                        the ways in which the loop goes on after a frame, or ends.  The frame is one
                        outside a run, since quiet devices do not ask for another run;
* `frames_ends`         a loop that has a limit comes to its end;
* `Spent k s t`         at most `k` frames were completed and rendered on the way from `s` to `t`;
* `run_budget`          a run keeps to its limit, or to one frame if the limit is less than that;
* `run_limit_zero`      a run that may have no frame at all has one.
-/

namespace Chip8.Session

variable {σ : Type} {devices : Peripherals σ} {s t u : Session σ} {limit : Option Int}
  {paced : Bool}

/-! ### After a frame of the loop -/

theorem frames_of_idle (hs : s.machine.running = false) (fuel done : Nat) :
    exec (frames devices paced limit (fuel + 1) done) s = (.ok (), s) := by
  unfold frames
  rw [exec_get_bind, hs]
  rfl

/-- A frame of the loop and a frame outside a run are the same. -/
theorem frames_succ (hq : devices.Quiet) (hs : s.machine.running = true) (inner fuel done : Nat) :
    exec (frames devices paced limit (fuel + 1) done) s = exec (do
      runFrame devices inner paced
      match limit with
      | some n => if (done + 1 : Int) < n then frames devices paced limit fuel (done + 1)
      | none => frames devices paced limit fuel (done + 1)) s := by
  rw [runFrame, frame_congr hq _ (guarded (frames devices true none fuel 0)) paced]
  conv_lhs => unfold frames
  rw [exec_get_bind, hs]
  rfl

/-- After `done` frames and one more the limit is not reached. -/
def Remains (limit : Option Int) (done : Nat) : Prop := ∀ n, limit = some n → (done + 1 : Int) < n

theorem frames_of_error (hq : devices.Quiet) (hs : s.machine.running = true) {inner : Nat}
    {e : Failure} (h : exec (runFrame devices inner paced) s = (.error e, t)) (fuel done : Nat) :
    exec (frames devices paced limit (fuel + 1) done) s = (.error e, t) := by
  rw [frames_succ hq hs inner, exec_bind_error h]

theorem frames_of_last (hq : devices.Quiet) (hs : s.machine.running = true) {inner done : Nat}
    (h : exec (runFrame devices inner paced) s = (.ok (), t)) (hlast : ¬ Remains limit done)
    (fuel : Nat) : exec (frames devices paced limit (fuel + 1) done) s = (.ok (), t) := by
  rw [frames_succ hq hs inner, exec_bind_ok h]
  cases limit with
  | none => exact absurd nofun hlast
  | some n =>
    have hn : ¬ (done + 1 : Int) < n := fun hn => hlast fun n' h => Option.some.inj h ▸ hn
    dsimp only
    rw [if_neg hn, exec_pure]

theorem frames_of_next (hq : devices.Quiet) (hs : s.machine.running = true) {inner done : Nat}
    (h : exec (runFrame devices inner paced) s = (.ok (), t)) (hnext : Remains limit done)
    (fuel : Nat) : exec (frames devices paced limit (fuel + 1) done) s =
      exec (frames devices paced limit fuel (done + 1)) t := by
  rw [frames_succ hq hs inner, exec_bind_ok h]
  cases limit with
  | none => rfl
  | some n =>
    dsimp only
    rw [if_pos (hnext n rfl)]

/-! ### The end of a run -/

/-- A loop that is allowed as many frames as its limit comes to its end. -/
theorem frames_ends (hq : devices.Quiet) (n : Int) (paced : Bool) (fuel : Nat) :
    ∀ (done : Nat) (s : Session σ), 0 < fuel → n ≤ done + fuel →
      (exec (frames devices paced (some n) fuel done) s).1 ≠ .error .unfinished := by
  induction fuel with
  | zero => exact fun _ _ h => absurd h (Nat.lt_irrefl 0)
  | succ fuel ih =>
    intro done s _ hn
    cases hs : s.machine.running with
    | false =>
      rw [frames_of_idle hs]
      nofun
    | true =>
      have hframe := runFrame_ends hq 0 paced s
      cases hx : exec (runFrame devices 0 paced) s with
      | mk r t =>
        rw [hx] at hframe
        cases r with
        | error e =>
          rw [frames_of_error hq hs hx]
          exact hframe
        | ok _ =>
          by_cases hnext : Remains (some n) done
          · have hlt : (done + 1 : Int) < n := hnext n rfl
            rw [frames_of_next hq hs hx hnext]
            exact ih (done + 1) t (by omega) (by omega)
          · rw [frames_of_last hq hs hx hnext]
            nofun

/-! ### The budget of a run -/

/-- Remarks may be left out where events are counted that are none. -/
theorem Happened.countP {es : List Event} (h : Happened s t es) {q : Event → Bool}
    (hq : ∀ e, q e = true → e.isRemark = false) : (since s t).countP q = es.countP q := by
  obtain ⟨all, htrace, rfl⟩ := h
  rw [since_eq htrace, List.countP_filter]
  refine List.countP_congr fun e _ => ?_
  constructor
  · intro he
    simp [he, hq e he]
  · intro he
    exact (Bool.and_eq_true _ _ ▸ he).1

/-- The events `es` from `s` to `t` are those of at most `k` frames. -/
structure Spent (k : Nat) (s t : Session σ) (es : List Event) : Prop where
  trace : t.trace = s.trace ++ es.toArray
  frames : t.machine.frameCount ≤ s.machine.frameCount + k
  renders : es.countP Event.isRendered ≤ k

namespace Spent

variable {k l : Nat} {es fs : List Event}

theorem refl (s : Session σ) : Spent 0 s s [] := ⟨by simp, Nat.le_refl _, Nat.le_refl _⟩

theorem trans (h : Spent k s t es) (h' : Spent l t u fs) : Spent (k + l) s u (es ++ fs) where
  trace := by rw [h'.trace, h.trace, Array.append_assoc, List.append_toArray es]
  frames := by
    have := h.frames
    have := h'.frames
    omega
  renders := by
    rw [List.countP_append]
    exact Nat.add_le_add h.renders h'.renders

theorem mono (h : Spent k s t es) (hkl : k ≤ l) : Spent l s t es where
  trace := h.trace
  frames := Nat.le_trans h.frames (Nat.add_le_add_left hkl _)
  renders := Nat.le_trans h.renders hkl

/-- Remarks are left out of what happened, but no display is rendered in them. -/
theorem ofHappened (h : Happened s t es) (hframes : t.machine.frameCount ≤ s.machine.frameCount + k)
    (hrenders : es.countP Event.isRendered ≤ k) : ∃ all, Spent k s t all := by
  have hcount : (since s t).countP Event.isRendered = es.countP Event.isRendered :=
    h.countP fun e he => by
      cases e with
      | rendered _ => rfl
      | _ => cases he
  obtain ⟨all, htrace, -⟩ := h
  refine ⟨all, htrace, hframes, ?_⟩
  rw [← since_eq htrace, hcount]
  exact hrenders

end Spent

/-- In a burst there is nothing but steps and waits. -/
theorem Course.mem {live : Except Keypad.Error Keypad} {es : List Event} (h : Course live es)
    {e : Event} (he : e ∈ es) :
    e.isStep = true ∨ (∃ timeout, e = .awaited timeout) ∨ ∃ keys, e = .synced keys := by
  cases h with
  | straight hes => exact .inl (hes e he)
  | unanswered es hes timeout =>
    rcases List.mem_append.mp he with he | he
    · exact .inl (hes e he)
    · exact .inr (.inl ⟨timeout, List.mem_singleton.mp he⟩)
  | @answered es fs q hes timeout hq hkeys hfs =>
    simp only [List.mem_append, List.mem_cons] at he
    obtain he | he | he | he := he
    · exact .inl (hes e he)
    · exact .inr (.inl ⟨timeout, he⟩)
    · exact .inr (.inr ⟨q.keys, he⟩)
    · exact .inl (hfs e he)

theorem Course.not_isRendered {live : Except Keypad.Error Keypad} {es : List Event}
    (h : Course live es) : ∀ e ∈ es, e.isRendered = false := by
  intro e he
  obtain hstep | ⟨timeout, rfl⟩ | ⟨keys, rfl⟩ := h.mem he
  · cases e with
    | rendered _ => cases hstep
    | _ => rfl
  · rfl
  · rfl

theorem Framed.spent {r : Except Failure Unit} {es : List Event} (h : Framed devices s r t es) :
    ∃ all, Spent 1 s t all := by
  have hcourse {live : Except Keypad.Error Keypad} {p : Keypad} {es : List Event}
      (h : Course live es) : (.polled :: .synced p.keys :: es).countP Event.isRendered = 0 := by
    refine List.countP_eq_zero.mpr fun e he => ?_
    rw [Bool.not_eq_true]
    simp only [List.mem_cons] at he
    obtain rfl | rfl | he := he
    · rfl
    · rfl
    · exact h.not_isRendered e he
  cases h with
  | refused h =>
    exact Spent.ofHappened h.happened (Nat.le_trans (Nat.le_of_eq h.frames) (Nat.le_succ _))
      (Nat.zero_le 1)
  | failed ho hd =>
    have hp := ho.passage.trans hd.passage
    refine Spent.ofHappened hp.happened (Nat.le_trans (Nat.le_of_eq hp.frames) (Nat.le_succ _)) ?_
    rw [List.cons_append, List.cons_append, List.nil_append, hcourse hd.course]
    exact Nat.zero_le 1
  | ended ho hd he =>
    have hp := ho.passage.trans hd.passage
    refine Spent.ofHappened (hp.happened.trans he.happened) (hp.frames ▸ he.frames) ?_
    rw [List.countP_append, List.cons_append, List.cons_append, List.nil_append,
      hcourse hd.course, Nat.zero_add]
    exact he.renders

theorem runFrame_spent (hq : devices.Quiet) (inner : Nat) (paced : Bool) (s : Session σ) :
    ∃ es, Spent 1 s (exec (runFrame devices inner paced) s).2 es := by
  obtain ⟨e, hx⟩ | ⟨r, t, es, hx, hf⟩ := runFrame_framed hq inner paced s
  · rw [hx]
    exact ⟨[], (Spent.refl s).mono (Nat.zero_le 1)⟩
  · rw [hx]
    exact hf.spent

/-- The loop has one frame more, however many are behind, and then none beyond the limit. -/
theorem frames_spent (hq : devices.Quiet) (n : Int) (paced : Bool) (fuel : Nat) :
    ∀ (done : Nat) (s : Session σ), ∃ es, Spent (max 1 (n.toNat - done)) s
      (exec (frames devices paced (some n) fuel done) s).2 es := by
  induction fuel with
  | zero => exact fun done s => ⟨[], (Spent.refl s).mono (Nat.zero_le _)⟩
  | succ fuel ih =>
    intro done s
    cases hs : s.machine.running with
    | false =>
      rw [frames_of_idle hs]
      exact ⟨[], (Spent.refl s).mono (Nat.zero_le _)⟩
    | true =>
      obtain ⟨es, hspent⟩ := runFrame_spent hq 0 paced s
      cases hx : exec (runFrame devices 0 paced) s with
      | mk r t =>
        rw [hx] at hspent
        cases r with
        | error e =>
          rw [frames_of_error hq hs hx]
          exact ⟨es, hspent.mono (Nat.le_max_left _ _)⟩
        | ok _ =>
          by_cases hnext : Remains (some n) done
          · have hlt : (done + 1 : Int) < n := hnext n rfl
            rw [frames_of_next hq hs hx hnext]
            obtain ⟨fs, hrest⟩ := ih (done + 1) t
            exact ⟨es ++ fs, (hspent.trans hrest).mono (by omega)⟩
          · rw [frames_of_last hq hs hx hnext]
            exact ⟨es, hspent.mono (Nat.le_max_left _ _)⟩

/-- **A run keeps to its limit, but for the first frame**, and it comes to its end if it is allowed
as many frames. -/
theorem run_budget (hq : devices.Quiet) (fuel : Nat) (n : Int) (paced : Bool) (s : Session σ) :
    let x := exec (run devices fuel (some n) paced) s
    x.2.machine.frameCount ≤ s.machine.frameCount + max 1 n.toNat ∧
      (since s x.2).countP Event.isRendered ≤ max 1 n.toNat ∧
      (max 1 n.toNat ≤ fuel → x.1 ≠ .error .unfinished) := by
  suffices h : (∃ es, Spent (max 1 n.toNat) s (exec (run devices fuel (some n) paced) s).2 es) ∧
      (max 1 n.toNat ≤ fuel → (exec (run devices fuel (some n) paced) s).1 ≠ .error .unfinished) by
    obtain ⟨⟨es, h⟩, hends⟩ := h
    refine ⟨h.frames, ?_, hends⟩
    rw [since_eq h.trace]
    exact h.renders
  cases hs : s.machine.running with
  | true =>
    rw [run, exec_guarded_running hs]
    exact ⟨⟨[], (Spent.refl s).mono (Nat.zero_le _)⟩, fun _ h => by cases h⟩
  | false =>
    rw [run, exec_guarded_stopped hs]
    refine ⟨?_, fun hfuel => frames_ends hq n paced fuel 0 s.entered (by omega) (by omega)⟩
    obtain ⟨lines, henter⟩ := s.entered_trace
    obtain ⟨es, hloop⟩ := frames_spent hq n paced fuel 0 s.entered
    obtain ⟨lines', hleave⟩ := (exec (frames devices paced (some n) fuel 0) s.entered).2.left_trace
    have hnone (e : Event) (he : e.isRendered = false) (lines : List String) :
        (e :: lines.map Event.printed).countP Event.isRendered ≤ 0 := by
      rw [List.countP_cons_of_neg (Bool.not_eq_true _ ▸ he)]
      simp [Event.isRendered]
    have hbefore : Spent 0 s s.entered _ := ⟨henter, Nat.le_refl _, hnone .began rfl lines⟩
    have hafter : Spent 0 _ _ _ := ⟨hleave, Nat.le_refl _, hnone .ended rfl lines'⟩
    exact ⟨_, ((hbefore.trans hloop).trans hafter).mono (by omega)⟩

theorem run_budget_twoPerFrame : releasing.Quiet ∧
    let x := exec (run releasing 3 (some 2) false) twoPerFrame
    x.2.machine.frameCount ≤ 0 + 2 ∧ (since twoPerFrame x.2).countP Event.isRendered ≤ 2 ∧
      x.1 ≠ .error .unfinished := by
  obtain ⟨hframes, hrenders, hends⟩ := run_budget quiet_releasing 3 2 false twoPerFrame
  exact ⟨quiet_releasing, hframes, hrenders, hends (by decide)⟩

/-- The limit is looked at after a frame only, so a run that may have none has one. -/
theorem run_limit_zero : looping.machine.running = false ∧
    ∃ t, exec (run .none 1 (some 0) false) looping = (.ok (), t) ∧
      t.machine.frameCount = looping.machine.frameCount + 1 ∧
      (since looping t).countP Event.isRendered = 1 := by
  have hframe := exec_frame (s := looping.entered) (by decide +kernel) .none (run .none 0 none true)
    false
  have hok : (exec (runFrame .none 0 false) looping.entered).1.isOk = true := by
    rw [runFrame, hframe]
    decide +kernel
  have hlast : ¬ Remains (some 0) 0 := fun h => absurd (h 0 rfl) (by decide)
  rw [run, exec_guarded_stopped rfl,
    frames_of_last Peripherals.quiet_none rfl (exec_eq_of_isOk hok) hlast]
  refine ⟨rfl, _, rfl, ?_⟩
  rw [runFrame, hframe]
  decide +kernel

end Chip8.Session
