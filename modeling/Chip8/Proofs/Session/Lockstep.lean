import Chip8.Proofs.Session.Account
import Mathlib.Data.List.Forall2

/-!
# Two sessions side by side

Two actions are coupled if they come to the same result from sessions that are alike, and leave
sessions that are alike again.  What alike means is up to the one who compares.

* `Coupled R a b`      the actions `a` and `b` are coupled, when `R` says which sessions are alike;
* `Peripherals.Match`  devices that make requests which belong together, call by call;
* `Peripherals.InStep` the same of their polls and renderings, where `D` says which devices are alike;
* `Lockstep R D P`     what has to be shown of `R`: the smallest parts of a frame are coupled.  `P`
                       says which paces of frames may stand side by side;
* `Lockstep.frame`     whole frames are coupled then, if their sounds are;
* `frame_congr`        among quiet devices a frame does not depend on what a run would be.
-/

namespace Chip8

/-- Two calls leave devices that are the same, and ask for things that belong together. -/
structure Paired {σ : Type} (asks : Request → Request → Prop) (c c' : σ × List (Turn σ)) : Prop where
  devices : c.1 = c'.1
  turns : List.Forall₂
    (fun turn turn' => ∀ keys d, Option.Rel asks (turn keys d) (turn' keys d)) c.2 c'.2

structure Peripherals.Match {σ : Type} (asks : Request → Request → Prop)
    (devices devices' : Peripherals σ) : Prop where
  poll : ∀ keys d, Paired asks (devices.poll keys d) (devices'.poll keys d)
  sound : ∀ keys d, Paired asks (devices.sound keys d) (devices'.sound keys d)
  render : ∀ display keys d,
    Paired asks (devices.render display keys d) (devices'.render display keys d)

/-- Two calls leave devices that are alike, and ask for things that belong together, whichever devices
that are alike will be there to decide. -/
structure PairedUpTo {σ : Type} (D : σ → σ → Prop) (asks : Request → Request → Prop)
    (c c' : σ × List (Turn σ)) : Prop where
  devices : D c.1 c'.1
  turns : List.Forall₂
    (fun turn turn' => ∀ keys d d', D d d' → Option.Rel asks (turn keys d) (turn' keys d'))
    c.2 c'.2

/-- As far as they poll and render, devices that are alike ask for things that belong together. -/
structure Peripherals.InStep {σ : Type} (D : σ → σ → Prop) (asks : Request → Request → Prop)
    (devices devices' : Peripherals σ) : Prop where
  poll : ∀ keys d d', D d d' → PairedUpTo D asks (devices.poll keys d) (devices'.poll keys d')
  render : ∀ display keys d d', D d d' →
    PairedUpTo D asks (devices.render display keys d) (devices'.render display keys d')

section
variable {σ : Type} {asks : Request → Prop} {rel : Request → Request → Prop}

theorem Paired.upTo_eq {c c' : σ × List (Turn σ)} (h : Paired rel c c') : PairedUpTo Eq rel c c' where
  devices := h.devices
  turns := h.turns.imp fun _ _ hturn keys d _ hd => hd ▸ hturn keys d

section
variable {devices devices' : Peripherals σ}

theorem Peripherals.Match.inStep (h : devices.Match rel devices') :
    devices.InStep Eq rel devices' where
  poll keys d _ hd := hd ▸ (h.poll keys d).upTo_eq
  render display keys d _ hd := hd ▸ (h.render display keys d).upTo_eq

theorem Peripherals.Match.sounds (h : devices.Match rel devices') (keys : Keys) (d d' : σ)
    (hd : d = d') : PairedUpTo Eq rel (devices.sound keys d) (devices'.sound keys d') :=
  hd ▸ (h.sound keys d).upTo_eq

end

theorem Only.paired {c : σ × List (Turn σ)} (h : Only asks c.2) (hrel : ∀ q, asks q → rel q q) :
    Paired rel c c where
  devices := rfl
  turns := by
    refine List.forall₂_same.mpr fun turn hturn keys d => ?_
    cases hq : turn keys d with
    | none => exact .none
    | some q => exact .some (hrel q (h turn hturn keys d q hq))

/-- Devices match themselves. -/
theorem Peripherals.Ask.match {devices : Peripherals σ} (h : devices.Ask asks)
    (hrel : ∀ q, asks q → rel q q) : devices.Match rel devices where
  poll keys d := (h.poll keys d).paired hrel
  sound keys d := (h.sound keys d).paired hrel
  render display keys d := (h.render display keys d).paired hrel

/-- The same request, if it is quiet. -/
def Request.Same (q q' : Request) : Prop := q = q' ∧ q.isQuiet = true

theorem Peripherals.Ask.match_same {devices : Peripherals σ} (hq : devices.Quiet) :
    devices.Match Request.Same devices := hq.match fun _ h => ⟨rfl, h⟩

end

/-- Whether statistics fail depends on neither the logger nor the moment. -/
theorem Logger.frameStats_cases (l l' : Logger) (now now' : Float) (frame : Int) (stats : Fields)
    (interval : Value) :
    (∃ e, l.frameStats now frame stats interval = .error e ∧
      l'.frameStats now' frame stats interval = .error e) ∨
    ∃ x y, l.frameStats now frame stats interval = .ok x ∧
      l'.frameStats now' frame stats interval = .ok y := by
  rw [frameStats, frameStats]
  cases interval.int? with
  | none => exact .inl ⟨_, rfl, rfl⟩
  | some n =>
    dsimp only
    cases statsDue frame n with
    | true => exact .inr ⟨_, _, rfl, rfl⟩
    | false => exact .inr ⟨_, _, rfl, rfl⟩

namespace Session

/-- Whether the rates have times depends on neither the moment nor the kind of frame. -/
theorem Pace.ofRates_cases (r : Rates) (paced paced' : Bool) (start start' : Float) :
    (∃ e, ofRates r paced start = .error e ∧ ofRates r paced' start' = .error e) ∨
      ∃ p q, ofRates r paced start = .ok p ∧ ofRates r paced' start' = .ok q := by
  rw [ofRates, ofRates]
  cases r.frameDuration with
  | error e => exact .inl ⟨e, rfl, rfl⟩
  | ok duration =>
    cases r.period with
    | error e => exact .inl ⟨e, rfl, rfl⟩
    | ok period => exact .inr ⟨_, _, rfl, rfl⟩

variable {σ α β : Type}

def Coupled (R : Session σ → Session σ → Prop) (a b : Act σ α) : Prop :=
  ∀ s t, R s t → (exec a s).1 = (exec b t).1 ∧ R (exec a s).2 (exec b t).2

namespace Coupled

variable {R : Session σ → Session σ → Prop}

theorem pure (x : α) : Coupled R (pure x) (pure x) := fun _ _ h => ⟨rfl, h⟩

theorem throw (e : Failure) : Coupled R (throw e : Act σ α) (throw e) := fun _ _ h => ⟨rfl, h⟩

theorem bind {a b : Act σ α} {f g : α → Act σ β} (h : Coupled R a b)
    (hf : ∀ x, Coupled R (f x) (g x)) : Coupled R (a >>= f) (b >>= g) := by
  intro s t hst
  obtain ⟨hr, hR⟩ := h s t hst
  cases ha : exec a s with
  | mk r u =>
    cases hb : exec b t with
    | mk r' v =>
      rw [ha, hb] at hr hR
      have hr : r = r' := hr
      subst hr
      cases r with
      | ok x =>
        rw [exec_bind_ok ha, exec_bind_ok hb]
        exact hf x u v hR
      | error e =>
        rw [exec_bind_error ha, exec_bind_error hb]
        exact ⟨rfl, hR⟩

theorem get {f g : Session σ → Act σ β} (h : ∀ s t, R s t → Coupled R (f s) (g t)) :
    Coupled R (MonadState.get >>= f) (MonadState.get >>= g) := fun s t hst => h s t hst s t hst

theorem alter {f g : Session σ → Session σ} (h : ∀ s t, R s t → R (f s) (g t)) :
    Coupled R (modify f : Act σ) (modify g) := fun s t hst => ⟨rfl, h s t hst⟩

/-- Sessions that are equal stay equal. -/
theorem refl (a : Act σ α) : Coupled Eq a a := by
  intro s t h
  rw [h]
  exact ⟨rfl, rfl⟩

end Coupled

/-! ### Frames -/

structure Lockstep (R : Session σ → Session σ → Prop) (D : σ → σ → Prop) (P : Pace → Pace → Prop) :
    Prop where
  waiting : ∀ {s t}, R s t → s.machine.waiting = t.machine.waiting
  rates : ∀ {s t}, R s t → s.machine.rates = t.machine.rates
  display : ∀ {s t}, R s t → s.machine.state.display = t.machine.state.display
  keys : ∀ {s t}, R s t → s.machine.keypad.keys = t.machine.keypad.keys
  devices : ∀ {s t}, R s t → D s.devices t.devices
  equip : ∀ {s t} {d d' : σ}, D d d' → R s t → R { s with devices := d } { t with devices := d' }
  step : Coupled R step step
  awaitKey : ∀ {p q}, P p q → Coupled R (awaitKey p) (awaitKey q)
  sleep : ∀ {p q}, P p q → ∀ executed : Nat,
    Coupled R (p.sleepUntil (p.start + Float.ofNat executed * p.period))
      (q.sleepUntil (q.start + Float.ofNat executed * q.period))
  rest : ∀ {p q}, P p q → Coupled R (p.sleepUntil p.deadline) (q.sleepUntil q.deadline)
  call : ∀ {e}, e = .polled ∨ e = .sounded ∨ (∃ display, e = .rendered display) →
    Coupled R (record e) (record e)
  syncKeypad : Coupled R syncKeypad syncKeypad
  tick : Coupled R tick tick
  countFrame : Coupled R countFrame countFrame

namespace Lockstep

variable {R : Session σ → Session σ → Prop} {D : σ → σ → Prop} {P : Pace → Pace → Prop} {p q : Pace}

theorem round (h : Lockstep R D P) (hpq : P p q) : Coupled R (round p) (round q) := by
  have hstep : Coupled R (do if ← Session.step then return Round.completed else return .waits)
      (do if ← Session.step then return .completed else return .waits) := by
    refine h.step.bind fun b => ?_
    cases b <;> exact .pure _
  refine .get fun s t hst => ?_
  rw [h.waiting hst]
  cases t.machine.waiting with
  | false => exact hstep
  | true =>
    refine (h.awaitKey hpq).bind fun key => ?_
    cases key with
    | false => exact .pure _
    | true => exact hstep

theorem rounds (h : Lockstep R D P) (hpq : P p q) (total n executed : Nat) :
    Coupled R (rounds p total n executed) (rounds q total n executed) := by
  induction n generalizing executed with
  | zero =>
    rw [Session.rounds, Session.rounds]
    split
    · exact .throw _
    · exact .pure _
  | succ n ih =>
    rw [Session.rounds, Session.rounds]
    split
    · refine (h.round hpq).bind fun r => ?_
      cases r with
      | held => exact .pure _
      | waits => exact ih executed
      | completed => exact (h.sleep hpq (executed + 1)).bind fun _ => ih (executed + 1)
    · exact .pure _

theorem burst (h : Lockstep R D P) (hpq : P p q) {total : Nat} (htotal : 0 < total) :
    Coupled R (burst p total) (burst q total) := by
  rw [burst_eq_rounds p htotal (Nat.le_refl _), burst_eq_rounds q htotal (Nat.le_refl _)]
  exact h.rounds hpq total _ 0

variable {asks : Request → Request → Prop} {run run' : Act σ} {devices devices' : Peripherals σ}

theorem performAll (h : Lockstep R D P)
    (hperform : ∀ q q', asks q q' → Coupled R (perform run q) (perform run' q'))
    {turns turns' : List (Turn σ)}
    (hturns : List.Forall₂
      (fun turn turn' => ∀ keys d d', D d d' → Option.Rel asks (turn keys d) (turn' keys d'))
      turns turns') :
    Coupled R (performAll run turns) (performAll run' turns') := by
  induction hturns with
  | nil => exact .pure _
  | @cons turn turn' turns turns' hturn _ ih =>
    refine .get fun s t hst => ?_
    have hasks := hturn t.machine.keypad.keys _ _ (h.devices hst)
    rw [h.keys hst]
    generalize turn _ s.devices = asked, turn' _ t.devices = asked' at hasks
    cases hasks with
    | none => exact ih
    | some hq => exact (hperform _ _ hq).bind fun _ => ih

theorem callDevice (h : Lockstep R D P)
    (hperform : ∀ q q', asks q q' → Coupled R (perform run q) (perform run' q')) {e : Event}
    (he : e = .polled ∨ e = .sounded ∨ ∃ display, e = .rendered display)
    {callback callback' : Callback σ}
    (hpaired : ∀ keys d d', D d d' → PairedUpTo D asks (callback keys d) (callback' keys d')) :
    Coupled R (Session.call run e callback) (Session.call run' e callback') := by
  refine (h.call he).bind fun _ => .get fun s t hst => ?_
  have hcalls := hpaired t.machine.keypad.keys _ _ (h.devices hst)
  dsimp only
  rw [h.keys hst]
  refine Coupled.bind ?_ fun _ => h.performAll hperform hcalls.turns
  exact .alter fun u v huv => h.equip hcalls.devices huv

theorem soundTone (h : Lockstep R D P)
    (hsounds : ∀ keys d d', D d d' →
      PairedUpTo D asks (devices.sound keys d) (devices'.sound keys d'))
    (hperform : ∀ q q', asks q q' → Coupled R (perform run q) (perform run' q'))
    (htimer : ∀ s t, R s t → s.machine.state.sound = t.machine.state.sound) :
    Coupled R (Session.soundTone devices run) (Session.soundTone devices' run') := by
  refine .get fun s t hst => ?_
  rw [htimer s t hst]
  split
  · exact h.callDevice hperform (.inr (.inl rfl)) hsounds
  · exact .pure _

/-- Frames whose paces belong together are coupled, if their sounds are. -/
theorem pacedFrame (h : Lockstep R D P) (hstep : devices.InStep D asks devices')
    (hperform : ∀ q q', asks q q' → Coupled R (perform run q) (perform run' q'))
    (hsound : Coupled R (Session.soundTone devices run) (Session.soundTone devices' run'))
    (hpq : P p q) :
    Coupled R (pacedFrame devices run p) (pacedFrame devices' run' q) := by
  have hrender : Coupled R (renderDisplay devices run) (renderDisplay devices' run') := by
    refine .get fun s t hst => ?_
    rw [h.display hst]
    exact h.callDevice hperform (.inr (.inr ⟨_, rfl⟩)) (hstep.render _)
  have hend : Coupled R (endFrame devices run) (endFrame devices' run') :=
    hsound.bind fun _ => h.tick.bind fun _ => hrender.bind fun _ => h.countFrame
  refine .get fun s t hst => ?_
  rw [h.rates hst]
  refine (h.callDevice hperform (.inl rfl) hstep.poll).bind fun _ => h.syncKeypad.bind fun _ => ?_
  exact (h.burst hpq t.machine.rates.instructionsPerFrame_pos).bind fun _ =>
    (h.rest hpq).bind fun _ => hend

/-- Frames from now on: their paces have to belong together if they begin in sessions that are
alike. -/
theorem frame (h : Lockstep R D P) (hstep : devices.InStep D asks devices')
    (hperform : ∀ q q', asks q q' → Coupled R (perform run q) (perform run' q'))
    (hsound : Coupled R (Session.soundTone devices run) (Session.soundTone devices' run'))
    {paced paced' : Bool} (hpace : ∀ {s t}, R s t → ∀ {r p q},
      Pace.ofRates r paced s.clock = .ok p → Pace.ofRates r paced' t.clock = .ok q → P p q) :
    Coupled R (Session.frame devices run paced) (Session.frame devices' run' paced') := by
  refine .get fun s t hst => ?_
  rw [h.rates hst]
  obtain ⟨e, hs, ht⟩ | ⟨p, q, hs, ht⟩ :=
    Pace.ofRates_cases t.machine.rates paced paced' s.clock t.clock
  · rw [hs, ht]
    exact .throw _
  · rw [hs, ht]
    exact h.pacedFrame hstep hperform hsound (hpace hst hs ht)

end Lockstep

/-- Among devices that do not ask for a run it does not matter what a run would be. -/
theorem frame_congr {devices : Peripherals σ} (hq : devices.Quiet) (run run' : Act σ)
    (paced : Bool) : frame devices run paced = frame devices run' paced := by
  have hlock : Lockstep (Eq : Session σ → Session σ → Prop) Eq Eq := {
    waiting := fun h => by rw [h]
    rates := fun h => by rw [h]
    display := fun h => by rw [h]
    keys := fun h => by rw [h]
    devices := fun h => by rw [h]
    equip := fun hd h => by rw [hd, h]
    step := .refl _
    awaitKey := fun h => by rw [h]; exact .refl _
    sleep := fun h _ => by rw [h]; exact .refl _
    rest := fun h => by rw [h]; exact .refl _
    call := fun _ => .refl _
    syncKeypad := .refl _
    tick := .refl _
    countFrame := .refl _ }
  have hperform (q q' : Request) (h : q.Same q') :
      Coupled Eq (perform run q) (perform run' q') := by
    obtain ⟨rfl, h⟩ := h
    cases q with
    | run | reset => cases h
    | _ => exact .refl _
  have hsound : Coupled Eq (soundTone devices run) (soundTone devices run') :=
    hlock.soundTone hq.match_same.sounds hperform fun s t h => by rw [h]
  have hframe : Coupled Eq (frame devices run paced) (frame devices run' paced) := by
    refine hlock.frame hq.match_same.inStep hperform hsound fun h _ _ _ hs ht => ?_
    rw [h, ht] at hs
    exact (Except.ok.inj hs).symm
  refine exec_ext fun s => ?_
  obtain ⟨hr, ht⟩ := hframe s s rfl
  exact Prod.ext hr ht

end Session

end Chip8
