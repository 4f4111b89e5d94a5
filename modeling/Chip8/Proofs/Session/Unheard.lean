import Chip8.Proofs.Session.Abreast

/-!
# The sound timer is not heard

Two sessions begin with machines that differ in the sound timer only, and the same operations are done in
both.  The devices do not hear the tone, except to let time pass.  Then both do the same until an
instruction sets the sound timer, but for the tones; and from then on they sound the same tones as well.

* `Event.hushed`      what has happened without the tones before the first instruction that sets the sound
                      timer.  The time does not count, since a tone may take some;
* `Peripherals.Deaf`  devices of which everything that a poll or a rendering depends on is in view, and the
                      tone leaves that as it is;
* `Hushed`            sessions that differ in the sound timer and out of view only, and what has happened is
                      the same when it is hushed.  If the timer was set, it does not differ either;
* `Hushed.abreast`    such sessions stay so, and `Hushed.alongside` says so of the tone;
* `sound_timer_unheard`   the main statement.
-/

namespace Chip8

namespace Event

/-- What is left of the event.  A tone counts if it is `heard`. -/
def hushed? (heard : Bool) : Event → Option Event
  | sounded => if heard then some sounded else none
  | observed _ => none
  | e => e.untimed?

/-- What is left of the events.  Tones are heard once the sound timer is set. -/
def hushed (heard : Bool) : List Event → List Event
  | [] => []
  | e :: es => (e.hushed? heard).toList ++ hushed (heard || Timer.sound.sets e) es

variable {es fs : List Event} {heard : Bool}

theorem hushed_append (heard : Bool) (es fs : List Event) :
    hushed heard (es ++ fs) = hushed heard es ++ hushed (heard || es.any Timer.sound.sets) fs := by
  induction es generalizing heard with
  | nil => rw [List.nil_append, hushed, List.any_nil, Bool.or_false, List.nil_append]
  | cons e es ih =>
    rw [List.cons_append, hushed, hushed, ih, List.any_cons, Bool.or_assoc, List.append_assoc]

/-- What is heard does not change while the timer is not set. -/
theorem hushed_of_free (h : Timer.sound.Free es) : hushed heard es = es.filterMap (hushed? heard) := by
  induction es with
  | nil => rfl
  | cons e es ih =>
    obtain ⟨he, hes⟩ := Timer.free_cons.mp h
    rw [hushed, he, Bool.or_false, ih hes, List.filterMap_cons]
    cases e.hushed? heard <;> rfl

theorem untimed?_bind_hushed? (e : Event) : e.untimed?.bind (hushed? heard) = e.hushed? heard := by
  cases e <;> rfl

/-- The time does not count. -/
theorem hushed_congr (h : es.filterMap untimed? = fs.filterMap untimed?)
    (hes : Timer.sound.Free es) (hfs : Timer.sound.Free fs) : hushed heard es = hushed heard fs := by
  have hfilter (gs : List Event) :
      gs.filterMap (hushed? heard) = (gs.filterMap untimed?).filterMap (hushed? heard) := by
    simp only [List.filterMap_filterMap, untimed?_bind_hushed?]
  rw [hushed_of_free hes, hushed_of_free hfs, hfilter es, hfilter fs, h]

end Event

namespace Timer
variable {τ : Timer} {es fs : List Event}

theorem any_sets : es.any τ.sets = false ↔ τ.Free es := by
  simp [Free]

theorem sets_eq_false {e : Event} (h : ∀ w, e ≠ .executed w) : τ.sets e = false := by
  cases e with
  | executed w => exact absurd rfl (h w)
  | _ => rfl

/-- Events that are the same but for the time set no timer if no word is executed in one of them. -/
theorem free_of_untimed? (h : es.filterMap Event.untimed? = fs.filterMap Event.untimed?)
    (hes : ∀ w, .executed w ∉ es) : τ.Free es ∧ τ.Free fs := by
  have hfs (w : UInt16) : .executed w ∉ fs := by
    intro hw
    have hmem : Event.executed w ∈ es.filterMap Event.untimed? :=
      h ▸ List.mem_filterMap.mpr ⟨_, hw, rfl⟩
    obtain ⟨e, he, hx⟩ := List.mem_filterMap.mp hmem
    cases e with
    | executed v => exact hes v he
    | _ => cases hx
  exact ⟨fun e he => sets_eq_false fun w hw => hes w (hw ▸ he),
    fun e he => sets_eq_false fun w hw => hfs w (hw ▸ he)⟩

end Timer

/-- The request is nothing to the machine. -/
def Request.isIdle : Request → Bool
  | advance _ | observe => true
  | _ => false

/-- Polls and renderings depend on the devices as far as they are in view, and what comes of them is
the same in view.  The tone is nothing to what is in view, nor to the machine. -/
structure Peripherals.Deaf {σ ι : Type} (view : σ → ι) (devices : Peripherals σ) : Prop where
  inStep : devices.InStep (fun d d' => view d = view d') Request.Retimed devices
  view_sound : ∀ keys d, view (devices.sound keys d).1 = view d
  sound : ∀ keys d, Only (fun q => q.isIdle = true) (devices.sound keys d).2

namespace Session

variable {σ ι : Type} {view : σ → ι} {devices : Peripherals σ} {s t : Session σ}

/-! ### The tone -/

theorem exec_performAll_idle (run : Act σ) {turns : List (Turn σ)}
    (h : Only (fun q => q.isIdle = true) turns) (s : Session σ) :
    ∃ (seen : List Bool) (clock : Float), exec (performAll run turns) s =
      (.ok (), { s.log (seen.map .observed) with clock }) := by
  induction turns generalizing s with
  | nil => exact ⟨[], s.clock, by rw [List.map_nil, log_nil]; rfl⟩
  | cons turn turns ih =>
    have hturns : Only (fun q => q.isIdle = true) turns := fun turn' h' =>
      h turn' (List.mem_cons_of_mem _ h')
    rw [performAll, exec_get_bind]
    cases hq : turn s.machine.keypad.keys s.devices with
    | none => exact ih hturns s
    | some q =>
      have hidle : q.isIdle = true := h turn List.mem_cons_self _ s.devices q hq
      cases q with
      | advance seconds =>
        dsimp only
        rw [perform, exec_bind_ok (exec_advance seconds s)]
        exact ih hturns _
      | observe =>
        obtain ⟨seen, clock, hx⟩ := ih hturns (s.log [.observed s.machine.running])
        refine ⟨s.machine.running :: seen, clock, ?_⟩
        have hperform : exec (perform run .observe) s =
            (.ok (), s.log [.observed s.machine.running]) := by
          rw [perform, exec_get_bind, exec_record]
        dsimp only
        rw [exec_bind_ok hperform, hx, log_log]
        rfl
      | _ => cases hidle

/-- The tone lets time pass at most, and it is told unless the timer is at zero. -/
theorem exec_soundTone_deaf (hd : devices.Deaf view) (run : Act σ) (s : Session σ) :
    ∃ (seen : List Bool) (clock : Float) (d : σ), view d = view s.devices ∧
      exec (soundTone devices run) s = (.ok (),
        { s.log (alarm s.machine.state.sound ++ seen.map .observed) with clock, devices := d }) := by
  rw [soundTone, exec_get_bind]
  by_cases h : s.machine.state.sound = 0
  · rw [alarm, if_pos h, h, if_neg (by decide)]
    exact ⟨[], s.clock, s.devices, rfl, by rw [List.map_nil, List.append_nil, log_nil]; rfl⟩
  · have hpos : 0 < s.machine.state.sound := UInt8.pos_iff_ne_zero.mpr h
    let keys := s.machine.keypad.keys
    obtain ⟨seen, clock, hx⟩ := exec_performAll_idle run (hd.sound keys s.devices)
      { s.log [.sounded] with devices := (devices.sound keys s.devices).1 }
    refine ⟨seen, clock, _, hd.view_sound keys s.devices, ?_⟩
    rw [alarm, if_neg h, if_pos hpos, exec_call]
    refine hx.trans ?_
    rw [← log_log]
    rfl

theorem free_tone (sound : UInt8) (seen : List Bool) :
    Timer.sound.Free (alarm sound ++ seen.map .observed) := by
  refine Timer.free_append.mpr ⟨fun e he => ?_, fun e he => ?_⟩
  · rw [mem_alarm he]
    rfl
  · obtain ⟨running, -, rfl⟩ := List.mem_map.mp he
    rfl

theorem hushed_tone (heard : Bool) (sound : UInt8) (seen : List Bool) :
    Event.hushed heard (alarm sound ++ seen.map .observed) = if heard then alarm sound else [] := by
  have hobserved : (seen.map Event.observed).filterMap (Event.hushed? heard) = [] := by
    simp [Event.hushed?]
  rw [Event.hushed_of_free (free_tone _ _), List.filterMap_append, hobserved, List.append_nil, alarm]
  by_cases h : sound = 0
  · rw [if_pos h, ite_self]
    rfl
  · rw [if_neg h]
    cases heard <;> rfl

/-! ### Sessions that differ in the sound timer -/

/-- As far as they are in view the sessions differ in the sound timer only.  What has happened since they
had the traces `S` and `T` is the same when it is hushed, and if it set the timer, so are the machines. -/
structure Hushed (view : σ → ι) (S T : Array Event) (s t : Session σ) : Prop where
  machine : s.machine.SameButSound t.machine
  devices : view s.devices = view t.devices
  script : s.script = t.script
  traces : ∃ es fs : List Event, s.trace = S ++ es.toArray ∧ t.trace = T ++ fs.toArray ∧
    Event.hushed false es = Event.hushed false fs ∧
    es.any Timer.sound.sets = fs.any Timer.sound.sets ∧
    (es.any Timer.sound.sets = true → s.machine = t.machine)

namespace Hushed

variable {S T : Array Event}

theorem begin (hm : s.machine.SameButSound t.machine) (hd : view s.devices = view t.devices)
    (hp : s.script = t.script) : Hushed view s.trace t.trace s t where
  machine := hm
  devices := hd
  script := hp
  traces := ⟨[], [], by simp, by simp, rfl, rfl, nofun⟩

/-- More has happened that does not set the timer.  It may tell the machines apart only if they are not
known to be the same. -/
theorem log (h : Hushed view S T s t) {es fs : List Event} (hes : Timer.sound.Free es)
    (hfs : Timer.sound.Free fs)
    (hlog : ∀ heard, (heard = true → s.machine = t.machine) →
      Event.hushed heard es = Event.hushed heard fs) : Hushed view S T (s.log es) (t.log fs) where
  machine := h.machine
  devices := h.devices
  script := h.script
  traces := by
    obtain ⟨es', fs', hs, ht, heq, hany, hsame⟩ := h.traces
    have hes : es.any Timer.sound.sets = false := Timer.any_sets.mpr hes
    have hfs : fs.any Timer.sound.sets = false := Timer.any_sets.mpr hfs
    refine ⟨es' ++ es, fs' ++ fs, ?_, ?_, ?_, ?_, ?_⟩
    · simp [Session.log, hs, Array.append_assoc]
    · simp [Session.log, ht, Array.append_assoc]
    · rw [Event.hushed_append, Event.hushed_append, heq, ← hany, Bool.false_or, hlog _ hsame]
    · rw [List.any_append, List.any_append, hes, hfs, hany]
    · rw [List.any_append, hes, Bool.or_false]
      exact hsame

/-- Both machines execute the same word.  If it sets the timer, then to the same value. -/
theorem execute (h : Hushed view S T s t) {a b : State} {w : UInt16}
    (hs : s.machine.state.step = .ok (a, w)) (ht : t.machine.state.step = .ok (b, w)) :
    Hushed view S T { s.log [.executed w] with machine := s.machine.stepped a w }
      { t.log [.executed w] with machine := t.machine.stepped b w } := by
  obtain ⟨hsame, hsets⟩ := h.machine.stepped hs ht
  obtain ⟨es, fs, htrace, htrace', heq, hany, hset⟩ := h.traces
  refine ⟨hsame, h.devices, h.script, es ++ [.executed w], fs ++ [.executed w], ?_, ?_, ?_, ?_, ?_⟩
  · simp [Session.log, htrace]
  · simp [Session.log, htrace']
  · rw [Event.hushed_append, Event.hushed_append, heq]
    rfl
  · rw [List.any_append, List.any_append, hany]
  · intro h'
    rw [List.any_append, Bool.or_eq_true] at h'
    rcases h' with h' | h'
    · have hm := hset h'
      rw [hm, ht] at hs
      cases hs
      show s.machine.stepped a w = _
      rw [hm]
    · exact hsets (by simpa using h')

theorem abreast (view : σ → ι) (S T : Array Event) :
    Abreast (Hushed view S T) (fun d d' => view d = view d') where
  machine h := h.machine
  devices h := h.devices
  script h := h.script
  refl _ := rfl
  equip hd h := { h with devices := hd }
  rescript _ h := { h with script := rfl }
  time _ _ _ _ h := { h with }
  log hlog hes h := by
    obtain ⟨hes, hfs⟩ := Timer.free_of_untimed? hlog hes
    exact h.log hes hfs fun heard _ => Event.hushed_congr hlog hes hfs
  change {_ _ f} hf h := {
    h with
    machine := hf.keeps h.machine
    traces := by
      obtain ⟨es, fs, hs, ht, heq, hany, hsame⟩ := h.traces
      exact ⟨es, fs, hs, ht, heq, hany, fun h => congrArg f (hsame h)⟩ }
  execute hs ht h := h.execute hs ht

/-- The tone is told in only one of the sessions at most if the sound timers differ. -/
theorem alongside (hd : devices.Deaf view) :
    Alongside (Hushed view S T) (fun d d' => view d = view d') devices devices where
  inStep := hd.inStep
  tone {inner inner'} _ := by
    intro s t h
    obtain ⟨seen, clock, d, hview, hs⟩ := exec_soundTone_deaf hd inner s
    obtain ⟨seen', clock', d', hview', ht⟩ := exec_soundTone_deaf hd inner' t
    have hlog : Hushed view S T (s.log (alarm s.machine.state.sound ++ seen.map .observed))
        (t.log (alarm t.machine.state.sound ++ seen'.map .observed)) := by
      refine h.log (free_tone _ _) (free_tone _ _) fun heard hsame => ?_
      rw [hushed_tone, hushed_tone]
      cases heard with
      | true => rw [hsame rfl]
      | false => rfl
    rw [hs, ht]
    exact ⟨rfl, { hlog with devices := (hview.trans h.devices).trans hview'.symm }⟩

end Hushed

/-- **The sound timer is not heard by the program.**  Among deaf devices and with the same script, two machines
that differ in it only do the same, but for the tones.  Once it was set, nothing is left of the
difference. -/
theorem sound_timer_unheard {ops : List (Operation σ)}
    (hdeaf : ∀ o ∈ ops, ∀ devices ∈ o.devices?, devices.Deaf view)
    (hm : s.machine.SameButSound t.machine) (hd : view s.devices = view t.devices)
    (hp : s.script = t.script) :
    s.outcomes ops = t.outcomes ops ∧
      (s.after ops).machine.SameButSound (t.after ops).machine ∧
      view (s.after ops).devices = view (t.after ops).devices ∧
      (s.after ops).script = (t.after ops).script ∧
      Event.hushed false (since s (s.after ops)) = Event.hushed false (since t (t.after ops)) ∧
      (¬ Timer.sound.Free (since s (s.after ops)) → (s.after ops).machine = (t.after ops).machine) := by
  have hbeside : List.Forall₂ (Operation.Beside (Alongside (Hushed view s.trace t.trace)
      fun d d' => view d = view d')) ops ops :=
    List.forall₂_same.mpr fun o ho =>
      .self fun devices hdevices => Hushed.alongside (hdeaf o ho devices hdevices)
  obtain ⟨hresults, h⟩ := (Hushed.abreast view s.trace t.trace).history hbeside (.begin hm hd hp)
  obtain ⟨es, fs, hs, ht, heq, -, hsame⟩ := h.traces
  rw [since_eq hs, since_eq ht]
  refine ⟨hresults, h.machine, h.devices, h.script, heq, fun hset => hsame ?_⟩
  rw [← Timer.any_sets, Bool.not_eq_false] at hset
  exact hset

/-- Devices that press the next of some keys whenever they are polled, and count the tones, each of which
takes its time. -/
def typing : Peripherals (Nat × List Int) where
  poll _ d := ((d.1, d.2.tail), [fun _ _ => d.2.head?.map fun k => .keypad (.press k)])
  sound _ d := ((d.1 + 1, d.2), [fun _ _ => some (.advance 1)])
  render _ _ d := (d, [])

/-- The number of tones is out of view. -/
theorem deaf_typing : typing.Deaf Prod.snd where
  inStep := {
    poll := by
      rintro - ⟨n, keys⟩ ⟨n', _⟩ rfl
      refine ⟨rfl, .cons (fun _ _ _ _ => ?_) .nil⟩
      dsimp only
      cases keys.head?.map fun k => Request.keypad (.press k) with
      | none => exact .none
      | some q => exact .some (.same q)
    render := fun _ _ _ _ hd => ⟨hd, .nil⟩ }
  view_sound _ _ := rfl
  sound _ _ turn hturn _ _ q hq := by
    rw [List.mem_singleton.mp hturn] at hq
    cases hq
    rfl

/-- A program that sets the sound timer to two in its second frame, and then reads a key. -/
def late : Session (Nat × List Int) where
  machine :=
    { twoPerFrame.machine with
      state := (State.initial ⟨0, 0⟩ false).after
        [.load [0x60, 0x02, 0x61, 0x01, 0xF0, 0x18, 0xF1, 0x0A]] }
  logger := { name := "" }
  devices := (0, [7])

theorem exec_late : ∃ u v, exec (runFrame typing 0 false) late = (.ok (), u) ∧
    exec (runFrame typing 0 false) u = (.ok (), v) ∧ v.machine.state.v.get 1 = 7 ∧
    v.machine.state.sound = 1 ∧ ¬ Timer.sound.Free (since late v) := by
  rw [runFrame, exec_frame (by decide +kernel)]
  refine ⟨_, _, exec_eq_of_isOk (by decide +kernel), exec_eq_of_isOk ?_, ?_⟩
  · rw [exec_frame (by decide +kernel)]
    decide +kernel
  · rw [exec_frame (by decide +kernel)]
    decide +kernel

/-- With the timer at nine the first frame sounds too, and after the second one no difference is left. -/
theorem sound_timer_unheard_late :
    let loud := { late with machine := late.machine.tuned 9 }
    let ops : List (Operation (Nat × List Int)) := [.runFrame typing 0 false, .runFrame typing 0 false]
    (∀ o ∈ ops, ∀ devices ∈ o.devices?, devices.Deaf Prod.snd) ∧
      late.machine.SameButSound loud.machine ∧ late.devices.2 = loud.devices.2 ∧
      late.script = loud.script ∧
      (loud.after ops).machine.state.v.get 1 = 7 ∧ (loud.after ops).machine.state.sound = 1 := by
  intro loud ops
  have hdeaf : ∀ o ∈ ops, ∀ devices ∈ o.devices?, devices.Deaf Prod.snd := by
    simp only [ops, List.forall_mem_cons, List.not_mem_nil, false_imp_iff, implies_true, and_true]
    exact ⟨fun _ h => Option.some.inj h ▸ deaf_typing, fun _ h => Option.some.inj h ▸ deaf_typing⟩
  have hsame : late.machine.SameButSound loud.machine := ⟨0, rfl⟩
  obtain ⟨u, v, hu, hv, hread, hsound, hset⟩ := exec_late
  have hafter : late.after ops = v := by
    show (exec _ (exec (runFrame typing 0 false) late).2).2 = v
    rw [hu]
    exact congrArg Prod.snd hv
  obtain ⟨-, -, -, -, -, hequal⟩ := sound_timer_unheard hdeaf hsame rfl rfl
  rw [hafter] at hequal
  refine ⟨hdeaf, hsame, rfl, rfl, ?_⟩
  rw [← hequal hset]
  exact ⟨hread, hsound⟩

end Session

end Chip8
