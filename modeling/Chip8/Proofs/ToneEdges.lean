import Chip8.Proofs.Session.Frames
import Chip8.Window

/-!
# When the tone starts and stops

At the end of a frame a window is told that the frame sounds, or it is not, and then it renders.  The tone
goes on by itself from one such frame to the next, so the mixer is called at the edges only.

* `Window.frame`        what the end of a frame does to a window, and the calls of the mixer in it;
* `endFrame_window`     it is what the end of a frame of a machine does to its window;
* `after`, `mixed`      the window after some frames, and the calls of all of them;
* `Settled w b`         the last frame of the window sounded if and only if `b`;
* `Settled.frame`       one frame;
* `Settled.balanced`    starts and stops alternate;
* `tone_edges`          the main statement.
-/

namespace Chip8

namespace Window

def frame (w : Window) (sounds : Bool) : Window × List MixerCall :=
  let told := if sounds then w.sound else (w, [])
  (told.1.settle.1, told.2 ++ told.1.settle.2)

def after (w : Window) (pattern : List Bool) : Window := pattern.foldl (fun w b => (w.frame b).1) w

/-- All calls of the mixer, one frame after the other. -/
def mixed (w : Window) : List Bool → List MixerCall
  | [] => []
  | b :: pattern => (w.frame b).2 ++ (w.frame b).1.mixed pattern

/-- The calls of a frame, by whether the one before it sounded. -/
def edge (before sounds : Bool) : List MixerCall :=
  if sounds = before then [] else if sounds then [.play] else [.stop]

structure Settled (w : Window) (sounded : Bool) : Prop where
  tone : w.tone = true
  sounding : w.sounding = false
  channel : w.channel = if sounded then some {} else none

variable {w : Window} {before : Bool}

/-- A window that was opened with a mixer is silent. -/
theorem create_settled {title : String} {scale : Value} {scheme : String} {stops : Bool}
    {setUp : List MixerCall} (h : create title scale scheme stops true = .ok (w, setUp)) :
    Settled w false := by
  obtain ⟨palette, -, h⟩ := bind_eq_ok_iff.mp h
  obtain ⟨scale, -, h⟩ := bind_eq_ok_iff.mp h
  obtain ⟨⟨width, height⟩, -, h⟩ := bind_eq_ok_iff.mp h
  cases h
  exact ⟨rfl, rfl, rfl⟩

theorem Settled.frame (h : w.Settled before) (b : Bool) :
    (w.frame b).1.Settled b ∧ (w.frame b).2 = edge before b := by
  obtain ⟨title, scale, width, height, palette, stops, tone, channel, sounding⟩ := w
  obtain ⟨rfl, rfl, rfl⟩ := h
  cases before <;> cases b <;> exact ⟨⟨rfl, rfl, rfl⟩, rfl⟩

theorem Settled.after (h : w.Settled before) (pattern : List Bool) :
    (w.after pattern).Settled (pattern.getLastD before) := by
  induction pattern generalizing w before with
  | nil => exact h
  | cons b pattern ih =>
    rw [List.getLastD_cons]
    exact ih (h.frame b).1

/-- A channel that is held before is one start more. -/
theorem Settled.balanced (h : w.Settled before) (pattern : List Bool) {calls : List MixerCall}
    (hcalls : calls <+: w.mixed pattern) :
    calls.count .stop ≤ calls.count .play + before.toNat ∧
      calls.count .play + before.toNat ≤ calls.count .stop + 1 := by
  induction pattern generalizing w before calls with
  | nil =>
    obtain rfl : calls = [] := List.prefix_nil.mp hcalls
    exact ⟨Nat.zero_le _, by cases before <;> decide⟩
  | cons b pattern ih =>
    obtain ⟨hnext, hedge⟩ := h.frame b
    rw [mixed, hedge] at hcalls
    by_cases hb : b = before
    · rw [edge, if_pos hb, List.nil_append] at hcalls
      rw [← hb]
      exact ih hnext hcalls
    · rw [edge, if_neg hb] at hcalls
      obtain hb' : before = !b := by
        cases before <;> cases b <;> first | rfl | exact absurd rfl hb
      subst hb'
      cases b with
      | true =>
        obtain rfl | ⟨rest, rfl, hrest⟩ := List.prefix_cons_iff.mp hcalls
        · decide
        · have hrest := ih hnext hrest
          rw [List.count_cons_of_ne (by decide), List.count_cons_self]
          exact hrest
      | false =>
        obtain rfl | ⟨rest, rfl, hrest⟩ := List.prefix_cons_iff.mp hcalls
        · decide
        · have hrest := ih hnext hrest
          rw [List.count_cons_self, List.count_cons_of_ne (by decide)]
          exact ⟨Nat.succ_le_succ hrest.1, Nat.succ_le_succ hrest.2⟩

end Window

/-! ### The frames of a machine -/

namespace Session
open Window

variable {σ : Type}

/-- A callback that asks for nothing. -/
theorem exec_call_idle (run : Act σ) (event : Event) {callback : Callback σ} {s : Session σ}
    (h : (callback s.machine.keypad.keys s.devices).2 = []) : exec (call run event callback) s =
      (.ok (), { s.log [event] with
        devices := (callback s.machine.keypad.keys s.devices).1 }) := by
  rw [exec_call, h]
  rfl

/-- Counting a frame is nothing to the devices. -/
theorem countFrame_devices (s : Session σ) : (exec countFrame s).2.devices = s.devices := by
  rw [countFrame, exec_bind_ok (exec_onMachine _ s), exec_get_bind]
  dsimp only
  split
  · rw [exec_bind_ok (exec_modify _ _), exec_print]
    rfl
  · rfl

/-- The end of a frame tells the window that the frame sounds if the sound timer runs, and renders. -/
theorem endFrame_window (run : Act Scripted) (s : Session Scripted) :
    (exec (endFrame Scripted.devices run) s).2.devices.window =
      (s.devices.window.frame (decide (0 < s.machine.state.sound))).1 := by
  obtain ⟨t, ht, hwindow⟩ : ∃ t, exec (soundTone Scripted.devices run) s = (.ok (), t) ∧
      t.devices.window.settle.1 =
        (s.devices.window.frame (decide (0 < s.machine.state.sound))).1 := by
    rw [soundTone, exec_get_bind]
    by_cases h : 0 < s.machine.state.sound
    · rw [if_pos h, exec_call_idle run .sounded rfl, decide_eq_true h]
      exact ⟨_, rfl, rfl⟩
    · rw [if_neg h, decide_eq_false h]
      exact ⟨s, rfl, rfl⟩
  rw [endFrame, exec_bind_ok ht, exec_bind_ok (exec_tick t), renderDisplay]
  rw [exec_bind_ok (by rw [exec_get_bind]; exact exec_call_idle run _ rfl), countFrame_devices]
  exact hwindow

end Session

namespace Window
open Session

variable {w : Window}

/-- **The tone starts and stops at the edges.**  After any frames the mixer is called exactly if the next one
sounds and the last one did not, or the other way round, and a channel is held exactly if it sounds. -/
theorem tone_edges {title : String} {scale : Value} {scheme : String} {stops : Bool}
    {setUp : List MixerCall} (h : create title scale scheme stops true = .ok (w, setUp))
    (pattern : List Bool) :
    (∀ b, ((w.after pattern).frame b).2 = edge (pattern.getLastD false) b ∧
      ((w.after pattern).frame b).1.channel.isSome = b) ∧
    (∀ calls, calls <+: w.mixed pattern → calls.count .stop ≤ calls.count .play ∧
      calls.count .play ≤ calls.count .stop + 1) ∧
    ∀ (run : Act Scripted) (s : Session Scripted), s.devices.window = w.after pattern →
      (exec (endFrame Scripted.devices run) s).2.devices.window =
        w.after (pattern ++ [decide (0 < s.machine.state.sound)]) := by
  have hsettled : (w.after pattern).Settled (pattern.getLastD false) := (create_settled h).after pattern
  refine ⟨fun b => ?_, fun calls hcalls => (create_settled h).balanced pattern hcalls, ?_⟩
  · obtain ⟨hnext, hedge⟩ := hsettled.frame b
    refine ⟨hedge, ?_⟩
    rw [hnext.channel]
    cases b <;> rfl
  · intro run s hs
    rw [endFrame_window, hs, after, after, List.foldl_append]
    rfl

/-- The tone is started once for two frames in a row, stopped, and started again. -/
theorem tone_edges_twice :
    ∃ w setUp, create defaultTitle (.int defaultScale) Palette.defaultName true true = .ok (w, setUp) ∧
      w.mixed [false, true, true, false] = [.play, .stop] ∧
      ((w.after [false, true, true, false]).frame true).2 = [.play] := by
  obtain ⟨w, setUp, h⟩ : ∃ w setUp,
      create defaultTitle (.int defaultScale) Palette.defaultName true true = .ok (w, setUp) :=
    ⟨_, _, rfl⟩
  refine ⟨w, setUp, h, ?_, ((tone_edges h [false, true, true, false]).1 true).1⟩
  cases h
  rfl

end Window

end Chip8
