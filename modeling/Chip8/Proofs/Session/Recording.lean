import Chip8.Proofs.Session.Account
import Chip8.Recorder

/-!
# What a recorder has

A recorder is among the devices if every sound and every display is passed on to it, and nothing else
changes it.  Then it has what the trace says, whatever the machine does and whatever else the devices
do and ask for.

* `Recorder.extend`              a recorder that was given displays and sounds;
* `Recorder.after`               a recorder after the displays and sounds of some events;
* `Recorder.lastFrame_after`     its last frame is the last of these displays;
* `Peripherals.Records`          devices among which there is a recorder;
* `Peripherals.records_recording`   one that stands beside other devices is such;
* `Goes.recorder_eq`             the recorder has the displays that were rendered, in their order, and
                                 counts them and the sounds.
-/

namespace Chip8

namespace Event

def picture? : Event → Option Display
  | rendered display => some display
  | _ => none

def isSounded : Event → Bool
  | sounded => true
  | _ => false

theorem picture?_eq_none {e : Event} (h : e.isRendered = false) : e.picture? = none := by
  cases e with
  | rendered _ => cases h
  | _ => rfl

/-- As many displays were rendered as pictures were seen. -/
theorem countP_isRendered (es : List Event) :
    es.countP isRendered = (es.filterMap picture?).length := by
  rw [List.length_filterMap_eq_countP]
  refine List.countP_congr fun e _ => ?_
  cases e <;> rfl

end Event

namespace Recorder

/-- The recorder when it was given more displays, one after the other, and more sounds. -/
def extend (r : Recorder) (displays : List Display) (sounds : Nat) : Recorder :=
  { r with
    frames := if r.keepFrames then r.frames ++ displays.toArray else r.frames
    framesRendered := r.framesRendered + displays.length
    soundFrames := r.soundFrames + sounds }

/-- The recorder after some events. -/
def after (r : Recorder) (es : List Event) : Recorder :=
  r.extend (es.filterMap Event.picture?) (es.countP Event.isSounded)

variable {r : Recorder} {es fs : List Event}

theorem extend_nil (r : Recorder) : r.extend [] 0 = r := by
  obtain ⟨keepFrames, frames, framesRendered, soundFrames⟩ := r
  cases keepFrames <;> simp [extend]

theorem extend_extend (r : Recorder) (ds ds' : List Display) (n n' : Nat) :
    (r.extend ds n).extend ds' n' = r.extend (ds ++ ds') (n + n') := by
  obtain ⟨keepFrames, frames, framesRendered, soundFrames⟩ := r
  cases keepFrames <;> simp [extend, Nat.add_assoc]

theorem after_append (r : Recorder) (es fs : List Event) :
    r.after (es ++ fs) = (r.after es).after fs := by
  rw [after, List.filterMap_append, List.countP_append, ← extend_extend]
  rfl

theorem after_sounded (r : Recorder) : r.after [.sounded] = r.sound := by
  show r.extend [] 1 = r.sound
  obtain ⟨keepFrames, frames, framesRendered, soundFrames⟩ := r
  cases keepFrames <;> simp [extend, sound]

theorem after_rendered (r : Recorder) (display : Display) :
    r.after [.rendered display] = r.render display := by
  show r.extend [display] 0 = _
  rw [extend, render, Array.push_eq_append]
  rfl

/-- Events in which nothing is sounded or rendered. -/
theorem after_of_none (h : ∀ e ∈ es, e.picture? = none ∧ e.isSounded = false) : r.after es = r := by
  have hpictures : es.filterMap Event.picture? = [] :=
    List.filterMap_eq_nil_iff.mpr fun e he => (h e he).1
  have hsounds : es.countP Event.isSounded = 0 :=
    List.countP_eq_zero.mpr fun e he => by simp [(h e he).2]
  rw [after, hpictures, hsounds, extend_nil]

/-- The last frame is the last display of the events, or the one before them if they have none. -/
theorem lastFrame_after (h : r.keepFrames = true) (es : List Event) :
    (r.after es).lastFrame =
      ((es.filterMap Event.picture?).getLast?.map .ok).getD r.lastFrame := by
  have hback : (r.after es).frames.back? =
      (es.filterMap Event.picture?).getLast?.or r.frames.back? := by
    rw [after, extend, if_pos h, Array.back?_append, List.back?_toArray]
  rw [lastFrame, hback]
  cases (es.filterMap Event.picture?).getLast? with
  | none => rfl
  | some d => rfl

theorem after_cons_lines {e : Event} (h : e.picture? = none ∧ e.isSounded = false)
    (lines : List String) (r : Recorder) : r.after (e :: lines.map .printed) = r := by
  refine after_of_none (List.forall_mem_cons.mpr ⟨h, fun e' he => ?_⟩)
  obtain ⟨line, -, rfl⟩ := List.mem_map.mp he
  exact ⟨rfl, rfl⟩

end Recorder

variable {σ : Type} {devices : Peripherals σ} {recorder : σ → Recorder}

namespace Peripherals

/-- There is a recorder among the devices. -/
structure Records (devices : Peripherals σ) (recorder : σ → Recorder) : Prop where
  poll : ∀ keys d, recorder (devices.poll keys d).1 = recorder d
  sound : ∀ keys d, recorder (devices.sound keys d).1 = (recorder d).sound
  render : ∀ display keys d, recorder (devices.render display keys d).1 = (recorder d).render display

theorem records_recording (devices : Peripherals σ) : devices.recording.Records Prod.fst where
  poll _ _ := rfl
  sound _ _ := rfl
  render _ _ _ := rfl

/-- A recorder beside other devices asks for nothing of its own. -/
theorem Ask.recording {asks : Request → Prop} (h : devices.Ask asks) :
    devices.recording.Ask asks := by
  have hturns {turns : List (Turn σ)} (h : Only asks turns) :
      Only asks (turns.map fun turn keys (s : Recorder × σ) => turn keys s.2) := by
    intro turn hturn keys d q hq
    obtain ⟨turn', hmem, rfl⟩ := List.mem_map.mp hturn
    exact h turn' hmem keys d.2 q hq
  exact ⟨fun keys d => hturns (h.poll keys d.2), fun keys d => hturns (h.sound keys d.2),
    fun display keys d => hturns (h.render display keys d.2)⟩

end Peripherals

namespace Session

variable {asks : Request → Prop} {s t : Session σ} {r : Except Failure Unit}

theorem Move.recorder_eq (hrec : devices.Records recorder) (h : Move devices asks s t) :
    ∃ es : List Event, t.trace = s.trace ++ es.toArray ∧
      recorder t.devices = (recorder s.devices).after es := by
  cases h with
  | aside es he htrace hmachine hdevices hscript =>
    refine ⟨es, htrace, ?_⟩
    rw [hdevices, Recorder.after_of_none fun e h => ?_]
    have haside := he e h
    cases e with
    | rendered _ | sounded => cases haside
    | _ => exact ⟨rfl, rfl⟩
  | @call e _ h =>
    refine ⟨[e], rfl, ?_⟩
    cases e with
    | polled =>
      cases h
      exact (hrec.poll _ _).trans (Recorder.extend_nil _).symm
    | sounded =>
      cases h
      rw [Recorder.after_sounded]
      exact hrec.sound _ _
    | rendered display =>
      cases h
      rw [Recorder.after_rendered]
      exact hrec.render display _ _
    | _ => cases h
  | keypad | count => exact ⟨[], Array.append_empty.symm, (Recorder.extend_nil _).symm⟩
  | step => exact ⟨[.executed _], rfl, (Recorder.extend_nil _).symm⟩
  | sync => exact ⟨[.synced _], rfl, (Recorder.extend_nil _).symm⟩
  | tick => exact ⟨[.ticked], rfl, (Recorder.extend_nil _).symm⟩
  | stop => exact ⟨[.stopped], rfl, (Recorder.extend_nil _).symm⟩
  | reset => exact ⟨[.wasReset], rfl, (Recorder.extend_nil _).symm⟩
  | enter h hs =>
    obtain ⟨lines, htrace⟩ := s.entered_trace
    exact ⟨_, htrace, (Recorder.after_cons_lines ⟨rfl, rfl⟩ lines _).symm⟩
  | leave h =>
    obtain ⟨lines, htrace⟩ := s.left_trace
    exact ⟨_, htrace, (Recorder.after_cons_lines ⟨rfl, rfl⟩ lines _).symm⟩

/-- **A recorder has what was rendered and sounded**, and nothing else. -/
theorem Goes.recorder_eq (hrec : devices.Records recorder) (h : Goes devices asks s r t) :
    recorder t.devices = (recorder s.devices).after (since s t) := by
  induction h with
  | done s | raise _ =>
    rw [since_self]
    exact (Recorder.extend_nil _).symm
  | move hm hrest ih =>
    obtain ⟨es, htrace, hmove⟩ := hm.recorder_eq hrec
    rw [since_trans htrace hrest.account.trace, since_eq htrace, Recorder.after_append, ← hmove, ih]
  | fault h lines =>
    rw [since_eq rfl]
    exact (Recorder.after_cons_lines ⟨rfl, rfl⟩ lines _).symm
  | @script s e h p =>
    let t : Session σ :=
      { s with script := s.script.tail, machine := { s.machine with keypad := p } }
    have hnone : since s t = [] := since_nil rfl
    rw [hnone]
    exact (Recorder.extend_nil _).symm
  | @leave h s t e hs ih =>
    obtain ⟨lines, htrace⟩ := t.left_trace
    rw [since_trans hs.account.trace htrace, since_eq htrace, Recorder.after_append, ← ih]
    exact (Recorder.after_cons_lines ⟨rfl, rfl⟩ lines _).symm

end Session

end Chip8
