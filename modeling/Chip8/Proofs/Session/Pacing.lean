import Chip8.Proofs.Session.Abreast

/-!
# Pacing plays no part in the emulation

Two sessions begin with the same machine, devices and script, and the same operations are done in both.
The clocks may differ, the frames of the one may be paced and those of the other not, and the devices
may let other amounts of time pass.  All that happens is the same, but for the times and the log.

* `Operation.Retimed`   the same operation, but for the time;
* `Untimed S T s t`     sessions that differ in the time only, and so does what has happened since;
* `Untimed.abreast`     such sessions stay so;
* `pacing_plays_no_part`   whole histories keep it so, and all operations come to the same results.
-/

namespace Chip8

/-- The devices do the same and ask for the same, but may let other amounts of time pass. -/
abbrev Peripherals.Retimed {σ : Type} (devices devices' : Peripherals σ) : Prop :=
  devices.Match Request.Retimed devices'

inductive Operation.Retimed {σ : Type} : Operation σ → Operation σ → Prop
  | runFrame {devices devices' : Peripherals σ} (h : devices.Retimed devices') (fuel : Nat)
      (paced paced' : Bool) :
      Retimed (.runFrame devices fuel paced) (.runFrame devices' fuel paced')
  | run {devices devices' : Peripherals σ} (h : devices.Retimed devices') (fuel : Nat)
      (limit : Option Int) (paced paced' : Bool) :
      Retimed (.run devices fuel limit paced) (.run devices' fuel limit paced')
  | advance (seconds seconds' : Float) : Retimed (.advance seconds) (.advance seconds')
  | same (o : Operation σ) : Retimed o o

namespace Session

variable {σ : Type}

structure Untimed (S T : Array Event) (s t : Session σ) : Prop where
  machine : s.machine = t.machine
  devices : s.devices = t.devices
  script : s.script = t.script
  traces : SameSince Event.untimed? S T s t

namespace Untimed

variable {S T : Array Event} {s t : Session σ}

theorem begin (hm : s.machine = t.machine) (hd : s.devices = t.devices)
    (hp : s.script = t.script) : Untimed s.trace t.trace s t where
  machine := hm
  devices := hd
  script := hp
  traces := .begin s t

theorem log (h : Untimed S T s t) {es fs : List Event}
    (hlog : es.filterMap Event.untimed? = fs.filterMap Event.untimed?) :
    Untimed S T (s.log es) (t.log fs) where
  machine := h.machine
  devices := h.devices
  script := h.script
  traces := h.traces.log hlog

theorem abreast (S T : Array Event) : Abreast (Untimed S T : Session σ → Session σ → Prop) Eq where
  machine h := .of_eq h.machine
  devices h := h.devices
  script h := h.script
  refl _ := rfl
  equip hd h := { h with devices := hd }
  rescript _ h := { h with script := rfl }
  time _ _ _ _ h := { h with }
  log hlog _ h := h.log hlog
  change {_ _ f} _ h := { h with machine := congrArg f h.machine }
  execute hs ht h := {
    h.log rfl with
    machine := by
      rw [h.machine, ht] at hs
      cases hs
      rw [h.machine] }

theorem alongside {devices devices' : Peripherals σ} (h : devices.Retimed devices') :
    Alongside (Untimed S T) Eq devices devices' where
  inStep := h.inStep
  tone hinner :=
    (abreast S T).lockstep.soundTone h.sounds (fun _ _ hq => (abreast S T).perform hinner hq)
      fun s t hst => by rw [hst.machine]

theorem retimed_refl (devices : Peripherals σ) : devices.Retimed devices :=
  (ask_anything devices).match fun q _ => .same q

theorem beside {o o' : Operation σ} (h : o.Retimed o') :
    o.Beside (Alongside (Untimed S T) Eq) o' := by
  cases h with
  | runFrame h fuel paced paced' => exact .runFrame (alongside h) fuel paced paced'
  | run h fuel limit paced paced' => exact .run (alongside h) fuel limit paced paced'
  | advance seconds seconds' => exact .advance seconds seconds'
  | same => exact .self fun devices _ => alongside (retimed_refl devices)

theorem history {ops ops' : List (Operation σ)} (hops : List.Forall₂ Operation.Retimed ops ops')
    (h : Untimed S T s t) :
    s.outcomes ops = t.outcomes ops' ∧ Untimed S T (s.after ops) (t.after ops') :=
  (abreast S T).history (hops.imp fun _ _ ho => beside ho) h

end Untimed

/-- **Pacing plays no part.**  The same operations, but for the time, come to the same results and
leave the same machine, devices and script, and in both sessions the same has happened. -/
theorem pacing_plays_no_part {ops ops' : List (Operation σ)}
    (hops : List.Forall₂ Operation.Retimed ops ops') {s t : Session σ}
    (hm : s.machine = t.machine) (hd : s.devices = t.devices) (hp : s.script = t.script) :
    s.outcomes ops = t.outcomes ops' ∧
      (s.after ops).machine = (t.after ops').machine ∧
      (s.after ops).devices = (t.after ops').devices ∧
      (s.after ops).script = (t.after ops').script ∧
      (since s (s.after ops)).filterMap Event.untimed? =
        (since t (t.after ops')).filterMap Event.untimed? := by
  obtain ⟨hresults, h⟩ := Untimed.history hops (.begin hm hd hp)
  exact ⟨hresults, h.machine, h.devices, h.script, h.traces.since_eq⟩

/-- Devices that let time pass when they are polled. -/
def dawdling (seconds : Float) : Peripherals Unit :=
  { Peripherals.none with poll := fun _ d => (d, [fun _ _ => some (.advance seconds)]) }

theorem retimed_dawdling (seconds seconds' : Float) :
    (dawdling seconds).Retimed (dawdling seconds') where
  poll _ _ := ⟨rfl, .cons (fun _ _ => .some (.advance _ _)) .nil⟩
  sound _ _ := ⟨rfl, .nil⟩
  render _ _ _ := ⟨rfl, .nil⟩

/-- Once the frame without a pace is known, so is the one with it. -/
theorem pacing_plays_no_part_twoPerFrame :
    let late := { twoPerFrame with clock := 100 }
    let ops : List (Operation Unit) := [.runFrame (dawdling 0) 1 false]
    let ops' : List (Operation Unit) := [.runFrame (dawdling 5) 1 true]
    List.Forall₂ Operation.Retimed ops ops' ∧ twoPerFrame.machine = late.machine ∧
      twoPerFrame.devices = late.devices ∧ twoPerFrame.script = late.script ∧
      (twoPerFrame.after ops).machine.instructionCount = 2 ∧
      (late.after ops').machine.instructionCount = 2 := by
  intro late ops ops'
  have hops : List.Forall₂ Operation.Retimed ops ops' :=
    .cons (.runFrame (retimed_dawdling 0 5) 1 false true) .nil
  have hcount : (twoPerFrame.after ops).machine.instructionCount = 2 := by
    show (exec (runFrame (dawdling 0) 1 false) twoPerFrame).2.machine.instructionCount = 2
    rw [runFrame, exec_frame (by decide +kernel)]
    decide +kernel
  obtain ⟨-, hmachine, -⟩ := pacing_plays_no_part (s := twoPerFrame) (t := late) hops rfl rfl rfl
  refine ⟨hops, rfl, rfl, rfl, hcount, ?_⟩
  rw [← hmachine]
  exact hcount

end Session

end Chip8
