import Chip8.Proofs.Session.Burst

/-!
# Quiet devices

A device is quiet if no request of its starts a run or resets the machine; all that change the keypad
only are.  A call to it leaves the frame in progress as it is.

* `Peripherals.Ask`      devices that ask for nothing but requests of a kind;
* `Peripherals.callback?` the part of the devices that an event calls;
* `Peripherals.Asks`     what they may ask for;
* `Peripherals.Quiet`    devices that neither start a run nor reset the machine;
* `Peripherals.polled`   the live keypad after a poll, one turn after the other;
* `Session.Untouched`    what a call may change: the live keypad and the running flag;
* `Session.call_quiet`   a call to a quiet device is such a change, and tells what the keypad became.
-/

namespace Chip8

/-! ### What devices ask for -/

namespace Request

/-- The request neither starts a run nor resets the machine. -/
def isQuiet : Request → Bool
  | run | reset => false
  | _ => true

theorem isQuiet_of_isKeypad {q : Request} (h : q.isKeypad = true) : q.isQuiet = true := by
  cases q with
  | run | reset => cases h
  | _ => rfl

/-- The live keypad after a quiet request. -/
def effect (p : Keypad) : Request → Except Keypad.Error Keypad
  | stop => .ok p.interrupt
  | q => q.onKeypad p

end Request

variable {σ : Type} {asks asks' : Request → Prop}

/-- Whatever the keys and the devices are like by then, the turns come to requests of this kind. -/
def Only (asks : Request → Prop) (turns : List (Turn σ)) : Prop :=
  ∀ turn ∈ turns, ∀ (keys : Keys) (d : σ) (q : Request), turn keys d = some q → asks q

namespace Peripherals

/-- The devices ask for nothing else, whatever they are like. -/
structure Ask (devices : Peripherals σ) (asks : Request → Prop) : Prop where
  poll : ∀ keys d, Only asks (devices.poll keys d).2
  sound : ∀ keys d, Only asks (devices.sound keys d).2
  render : ∀ display keys d, Only asks (devices.render display keys d).2

/-- What the devices do when an event is a call to them. -/
def callback? (devices : Peripherals σ) : Event → Option (Callback σ)
  | .polled => some devices.poll
  | .sounded => some devices.sound
  | .rendered display => some (devices.render display)
  | _ => Option.none

theorem Ask.callback {devices : Peripherals σ} (h : devices.Ask asks) {e : Event}
    {callback : Callback σ} (he : devices.callback? e = some callback) (keys : Keys) (d : σ) :
    Only asks (callback keys d).2 := by
  cases e with
  | polled =>
    cases he
    exact h.poll keys d
  | sounded =>
    cases he
    exact h.sound keys d
  | rendered display =>
    cases he
    exact h.render display keys d
  | _ => cases he

/-- A turn of the devices may come to this request. -/
def Asks (devices : Peripherals σ) (q : Request) : Prop :=
  ∃ e callback, devices.callback? e = some callback ∧
    ∃ keys d, ∃ turn ∈ (callback keys d).2, ∃ keys' d', turn keys' d' = some q

theorem ask_asks (devices : Peripherals σ) : devices.Ask devices.Asks where
  poll keys d turn ht keys' d' _ hq := ⟨.polled, _, rfl, keys, d, turn, ht, keys', d', hq⟩
  sound keys d turn ht keys' d' _ hq := ⟨.sounded, _, rfl, keys, d, turn, ht, keys', d', hq⟩
  render display keys d turn ht keys' d' _ hq :=
    ⟨.rendered display, _, rfl, keys, d, turn, ht, keys', d', hq⟩

theorem Ask.of_asks {devices : Peripherals σ} (h : devices.Ask asks) {q : Request}
    (hq : devices.Asks q) : asks q := by
  obtain ⟨e, callback, he, keys, d, turn, ht, keys', d', hq⟩ := hq
  exact h.callback he keys d turn ht keys' d' q hq

theorem Ask.mono {devices : Peripherals σ} (h : devices.Ask asks) (himp : ∀ q, asks q → asks' q) :
    devices.Ask asks' where
  poll keys d turn ht keys' d' q hq := himp q (h.poll keys d turn ht keys' d' q hq)
  sound keys d turn ht keys' d' q hq := himp q (h.sound keys d turn ht keys' d' q hq)
  render x keys d turn ht keys' d' q hq := himp q (h.render x keys d turn ht keys' d' q hq)

abbrev Quiet (devices : Peripherals σ) : Prop := devices.Ask fun q => q.isQuiet = true

/-- Devices that do nothing ask for nothing. -/
theorem ask_none : (none : Peripherals σ).Ask asks :=
  ⟨fun _ _ => nofun, fun _ _ => nofun, fun _ _ _ => nofun⟩

theorem quiet_none : (none : Peripherals σ).Quiet := ask_none

/-- The live keypad after the turns, if the devices stay as they are. -/
def takeTurns (turns : List (Turn σ)) (d : σ) (p : Keypad) : Except Keypad.Error Keypad :=
  turns.foldlM (fun p turn => (turn p.keys d).elim (.ok p) (Request.effect p)) p

/-- The live keypad after a poll. -/
def polled (devices : Peripherals σ) (d : σ) (p : Keypad) : Except Keypad.Error Keypad :=
  takeTurns (devices.poll p.keys d).2 (devices.poll p.keys d).1 p

theorem takeTurns_cons_none {turn : Turn σ} {d : σ} {p : Keypad} (h : turn p.keys d = Option.none)
    (turns : List (Turn σ)) : takeTurns (turn :: turns) d p = takeTurns turns d p := by
  rw [takeTurns, List.foldlM_cons, h]
  rfl

theorem takeTurns_cons_some {turn : Turn σ} {d : σ} {p : Keypad} {q : Request}
    (h : turn p.keys d = some q) (turns : List (Turn σ)) :
    takeTurns (turn :: turns) d p = q.effect p >>= takeTurns turns d := by
  rw [takeTurns, List.foldlM_cons, h]
  rfl

end Peripherals

namespace Session

/-- From `s` to `t` the events `es` happened, and nothing changed in the machine but the live keypad
and the running flag. -/
structure Untouched (s t : Session σ) (es : List Event) : Prop where
  happened : Happened s t es
  machine : t.machine =
    { s.machine with keypad := t.machine.keypad, running := t.machine.running }
  script : t.script = s.script

namespace Untouched

variable {s t u : Session σ} {es fs : List Event}

theorem trans (h : Untouched s t es) (h' : Untouched t u fs) : Untouched s u (es ++ fs) where
  happened := h.happened.trans h'.happened
  machine := by
    rw [h'.machine, h.machine]
  script := h'.script.trans h.script

theorem state (h : Untouched s t es) : t.machine.state = s.machine.state := by rw [h.machine]

theorem waiting (h : Untouched s t es) : t.machine.waiting = s.machine.waiting := by rw [h.machine]

theorem instructions (h : Untouched s t es) :
    t.machine.instructionCount = s.machine.instructionCount := by rw [h.machine]

theorem frames (h : Untouched s t es) : t.machine.frameCount = s.machine.frameCount := by
  rw [h.machine]

theorem passage (h : Untouched s t es) (he : ∀ e ∈ es, e.isIdle = true) : Passage s t es 0 where
  happened := h.happened
  replay := h.state ▸ .ofIdle he _
  instructions := h.instructions
  frames := h.frames

end Untouched

/-- A quiet request is granted, or refused with the keypad's error. -/
theorem perform_quiet (run : Act σ) {q : Request} (hq : q.isQuiet = true) (s : Session σ) :
    ∃ t, Untouched s t [] ∧ t.devices = s.devices ∧
      ((exec (perform run q) s = (.ok (), t) ∧
        q.effect s.machine.keypad = .ok t.machine.keypad) ∨
      ∃ e, exec (perform run q) s = (.error (.keypad e), t) ∧
        q.effect s.machine.keypad = .error e) := by
  cases q with
  | run | reset => cases hq
  | stop =>
    refine ⟨_, ?_, ?_, .inl ⟨exec_stop s, rfl⟩⟩
    · exact ⟨⟨[.stopped], rfl, rfl⟩, rfl, rfl⟩
    · rfl
  | advance seconds =>
    refine ⟨_, ?_, ?_, .inl ⟨exec_advance seconds s, rfl⟩⟩
    · exact ⟨.nothing rfl, rfl, rfl⟩
    · rfl
  | observe =>
    refine ⟨_, ?_, ?_, .inl ⟨exec_record (.observed s.machine.running) s, rfl⟩⟩
    · exact ⟨⟨[.observed s.machine.running], rfl, rfl⟩, rfl, rfl⟩
    · rfl
  | keypad c =>
    rw [perform]
    cases hc : s.machine.keypad.change c with
    | ok p =>
      refine ⟨_, ?_, ?_, .inl ⟨exec_onKeypad_ok (f := fun p => p.change c) hc, hc⟩⟩
      · exact ⟨.nothing rfl, rfl, rfl⟩
      · rfl
    | error e =>
      have hx := exec_onKeypad_error (f := fun p => p.change c) hc
      exact ⟨s, ⟨.nothing rfl, rfl, rfl⟩, rfl, .inr ⟨e, hx, hc⟩⟩

/-- Quiet requests one after the other: each that is granted leaves the keypad for the next. -/
theorem performAll_quiet (run : Act σ) {turns : List (Turn σ)}
    (hc : Only (fun q => q.isQuiet = true) turns) (s : Session σ) :
    ∃ t, Untouched s t [] ∧ t.devices = s.devices ∧
      ((exec (performAll run turns) s = (.ok (), t) ∧
        Peripherals.takeTurns turns s.devices s.machine.keypad = .ok t.machine.keypad) ∨
      ∃ e, exec (performAll run turns) s = (.error (.keypad e), t) ∧
        Peripherals.takeTurns turns s.devices s.machine.keypad = .error e) := by
  induction turns generalizing s with
  | nil => exact ⟨s, ⟨.nothing rfl, rfl, rfl⟩, rfl, .inl ⟨rfl, rfl⟩⟩
  | cons turn turns ih =>
    have ih := ih fun turn' h => hc turn' (List.mem_cons_of_mem turn h)
    rw [performAll, exec_get_bind]
    cases hq : turn s.machine.keypad.keys s.devices with
    | none =>
      rw [Peripherals.takeTurns_cons_none hq]
      exact ih s
    | some q =>
      rw [Peripherals.takeTurns_cons_some hq]
      obtain ⟨t, hu, hd, ⟨hx, hk⟩ | ⟨e, hx, hk⟩⟩ :=
        perform_quiet run (hc turn List.mem_cons_self _ _ q hq) s
      · obtain ⟨u, hu', hd', hx'⟩ := ih t
        refine ⟨u, hu.trans hu', hd'.trans hd, ?_⟩
        dsimp only
        rw [exec_bind_ok hx, hk, ← hd]
        exact hx'
      · refine ⟨t, hu, hd, .inr ⟨e, exec_bind_error hx _, ?_⟩⟩
        rw [hk]
        rfl

/-- The devices are changed by the callback only, and the machine by their turns. -/
theorem call_quiet (run : Act σ) (event : Event) {callback : Callback σ}
    (he : event.isRemark = false) (s : Session σ)
    (hc : Only (fun q => q.isQuiet = true) (callback s.machine.keypad.keys s.devices).2) :
    let called := callback s.machine.keypad.keys s.devices
    ∃ t, Untouched s t [event] ∧ t.devices = called.1 ∧
      ((exec (call run event callback) s = (.ok (), t) ∧
        Peripherals.takeTurns called.2 called.1 s.machine.keypad = .ok t.machine.keypad) ∨
      ∃ e, exec (call run event callback) s = (.error (.keypad e), t) ∧
        Peripherals.takeTurns called.2 called.1 s.machine.keypad = .error e) := by
  intro called
  let u : Session σ := { s.log [event] with devices := called.1 }
  have hu : Untouched s u [event] := ⟨⟨[event], rfl, by simp [he]⟩, rfl, rfl⟩
  obtain ⟨t, ht, hd, h⟩ := performAll_quiet run hc u
  rw [exec_call]
  exact ⟨t, hu.trans ht, hd, h⟩

end Session

end Chip8
