import Chip8.Proofs.Session.Keyring
import Chip8.Proofs.Session.Lockstep

/-!
# What a reset forgets

A reset is refused while the machine runs, and otherwise makes everything anew out of three things: the
mode, the program that was loaded last, and the machine's own key.  So all that has to be known of a
history is what it leaves of these.

* `Rests a`               the action leaves a machine that does not run as one that does not run.  All
                          operations are such, since a run that ends takes the flag down;
* `loads s ops`           the programs of the loads that succeed in a history, in order;
* `remembered_after`      the program of the machine is the last of these, and its mode never changes;
* `Kept.own_eq`           the machine's own key has moved on by one for each reset;
* `reset_forgets`         the main statement.
-/

namespace Chip8

/-- The operation is to load something, though there may be nothing to load. -/
def Operation.isLoad {σ : Type} : Operation σ → Bool
  | load _ | loadFile _ _ => true
  | _ => false

namespace Session

variable {σ α : Type} {devices : Peripherals σ} {asks : Request → Prop} {s t : Session σ}
  {r : Except Failure Unit}

/-! ### Between the operations nothing runs -/

def Rests (a : Act σ α) : Prop :=
  ∀ s, s.machine.running = false → (exec a s).2.machine.running = false

theorem Move.rests (h : Move devices asks s t) (hrun : ¬ asks .run)
    (hs : s.machine.running = false) : t.machine.running = false := by
  cases h with
  | aside es he htrace hmachine hdevices hscript =>
    rw [hmachine]
    exact hs
  | stop => rfl
  | reset _ _ hm =>
    rw [Machine.reset_eq_ok hm]
    exact hs
  | enter h | leave h => exact absurd h hrun
  | _ => exact hs

theorem Goes.rests (h : Goes devices asks s r t) (hrun : ¬ asks .run)
    (hs : s.machine.running = false) : t.machine.running = false := by
  induction h with
  | done | raise _ | script => exact hs
  | move hm _ ih => exact ih (hm.rests hrun hs)
  | fault | leave => rfl

/-- An action in which nobody can ask for a run. -/
theorem Does.rests {a : Act σ α} (h : Does (.none : Peripherals σ) (· ≠ .run) a) : Rests a :=
  fun s hs => (h s).rests (fun hrun => hrun rfl) hs

theorem rests_record (e : Event) : Rests (record e : Act σ) := by
  intro s hs
  rw [exec_record]
  exact hs

theorem rests_guarded (loop : Act σ) : Rests (guarded loop) := by
  intro s hs
  rw [exec_guarded_stopped hs]
  rfl

theorem rests_perform {run : Act σ} (hrun : Rests run) (q : Request) : Rests (perform run q) := by
  by_cases hq : q = .run
  · rw [hq]
    exact hrun
  · exact Does.rests (Does.perform (fun h => absurd rfl h) hq)

/-- Two sessions that are the same and do not run: what is coupled with itself rests. -/
def Resting (s t : Session σ) : Prop := s = t ∧ s.machine.running = false

theorem Rests.coupled {a : Act σ α} (h : Rests a) : Coupled Resting a a := by
  rintro s t ⟨rfl, hs⟩
  exact ⟨rfl, rfl, h s hs⟩

/-- A device may ask for a run within the frame, so the moves of the frame do not tell: the flag goes up
and down again.  Its parts do tell, and a run is one of them. -/
theorem rests_runFrame (devices : Peripherals σ) (fuel : Nat) (paced : Bool) :
    Rests (runFrame devices fuel paced) := by
  have hlock : Lockstep (Resting (σ := σ)) Eq Eq := {
    waiting := fun h => by rw [h.1]
    rates := fun h => by rw [h.1]
    display := fun h => by rw [h.1]
    keys := fun h => by rw [h.1]
    devices := fun h => by rw [h.1]
    equip := fun hd h => by
      obtain ⟨rfl, hs⟩ := h
      exact ⟨by rw [hd], hs⟩
    step := Does.step.rests.coupled
    awaitKey := fun h => by rw [h]; exact (Does.awaitKey _).rests.coupled
    sleep := fun h _ => by rw [h]; exact (Does.sleepUntil _ _).rests.coupled
    rest := fun h => by rw [h]; exact (Does.sleepUntil _ _).rests.coupled
    call := fun _ => (rests_record _).coupled
    syncKeypad := Does.syncKeypad.rests.coupled
    tick := Does.tick.rests.coupled
    countFrame := Does.countFrame.rests.coupled }
  have hmatch : devices.Match Eq devices := (ask_anything devices).match fun _ _ => rfl
  have hperform (q q' : Request) (h : q = q') : Coupled Resting
      (perform (run devices fuel none true) q) (perform (run devices fuel none true) q') := by
    rw [h]
    exact (rests_perform (rests_guarded _) q').coupled
  have hframe : Coupled Resting (runFrame devices fuel paced) (runFrame devices fuel paced) := by
    refine hlock.frame hmatch.inStep hperform ?_ fun h _ _ _ hp hq => ?_
    · exact hlock.soundTone hmatch.sounds hperform fun s t h => by rw [h.1]
    · rw [h.1, hq] at hp
      exact (Except.ok.inj hp).symm
  exact fun s hs => (hframe s s ⟨rfl, hs⟩).2.2

theorem rests_act (o : Operation σ) : Rests o.act := by
  cases ho : o.program? with
  | some program =>
    intro s hs
    obtain ⟨m, lines, hm, hx⟩ | ⟨c, -, hx⟩ := exec_act_load_cases ho s
    · obtain ⟨-, rfl⟩ := Machine.load_eq_ok hm
      rw [hx]
      exact hs
    · rw [hx]
      exact hs
  | none =>
    cases o with
    | load program => cases ho
    | loadFile name contents =>
      cases contents with
      | ok program => cases ho
      | error e => exact fun s hs => hs
    | reset => exact (Does.reset nofun).rests
    | syncKeypad => exact Does.syncKeypad.rests
    | step => exact (Does.step.bind fun _ => .pure ()).rests
    | runFrame devices fuel paced => exact rests_runFrame devices fuel paced
    | run devices fuel limit paced => exact rests_guarded _
    | stop => exact (Does.stop nofun).rests
    | keypad change =>
      intro s hs
      show (exec (onKeypad change) s).2.machine.running = false
      cases hc : change s.machine.keypad with
      | ok p =>
        rw [exec_onKeypad_ok hc]
        exact hs
      | error e =>
        rw [exec_onKeypad_error hc]
        exact hs
    | advance seconds => exact (Does.advance seconds).rests
    | equip devices script => exact fun s hs => hs

theorem rests_after (ops : List (Operation σ)) (hs : s.machine.running = false) :
    (s.after ops).machine.running = false := by
  induction ops generalizing s with
  | nil => exact hs
  | cons o ops ih => exact ih (rests_act o s hs)

/-! ### What the machine remembers -/

/-- The program that an operation has the machine remember. -/
def loaded? (s : Session σ) (o : Operation σ) : Option (List UInt8) :=
  if (exec o.act s).1.isOk then o.program? else none

/-- The programs that were loaded, one after the other. -/
def loads (s : Session σ) : List (Operation σ) → List (List UInt8)
  | [] => []
  | o :: ops => (s.loaded? o).toList ++ (exec o.act s).2.loads ops

/-- The mode is that of the beginning, and the program is the last one of some that fit. -/
structure Remembers (s t : Session σ) (programs : List (List UInt8)) : Prop where
  legacy : t.machine.legacy = s.machine.legacy
  program : t.machine.program = programs.getLastD s.machine.program
  fits : ∀ p ∈ programs, p.length ≤ 3584

theorem Remembers.same (hlegacy : t.machine.legacy = s.machine.legacy)
    (hprogram : t.machine.program = s.machine.program) : Remembers s t [] :=
  ⟨hlegacy, hprogram, nofun⟩

theorem Remembers.trans {u : Session σ} {programs programs' : List (List UInt8)}
    (h : Remembers s t programs) (h' : Remembers t u programs') :
    Remembers s u (programs ++ programs') where
  legacy := h'.legacy.trans h.legacy
  program := by
    rw [h'.program, h.program]
    simp [List.getLastD_eq_getLast?]
  fits p hp := (List.mem_append.mp hp).elim (h.fits p) (h'.fits p)

theorem Remembers.length_le {programs : List (List UInt8)} (h : Remembers s t programs)
    (hs : s.machine.program.length ≤ 3584) : t.machine.program.length ≤ 3584 := by
  rw [h.program]
  rcases List.mem_cons.mp (List.getLastD_mem_cons (l := programs)) with hp | hp
  · rw [hp]
    exact hs
  · exact h.fits _ hp

theorem Move.remembers (h : Move devices asks s t) : Remembers s t [] := by
  cases h with
  | aside es he htrace hmachine hdevices hscript => exact .same (by rw [hmachine]) (by rw [hmachine])
  | reset _ _ hm =>
    rw [Machine.reset_eq_ok hm]
    exact .same rfl rfl
  | _ => exact .same rfl rfl

theorem Goes.remembers (h : Goes devices asks s r t) : Remembers s t [] := by
  induction h with
  | done | raise _ | script | fault _ _ => exact .same rfl rfl
  | move hm _ ih => exact hm.remembers.trans ih
  | leave _ _ ih => exact .same ih.legacy ih.program

theorem act_remembers (s : Session σ) (o : Operation σ) :
    Remembers s (exec o.act s).2 (s.loaded? o).toList := by
  cases ho : o.program? with
  | none =>
    have hnone : s.loaded? o = none := by rw [loaded?, ho, ite_self]
    rw [hnone]
    obtain ⟨devices, r, h⟩ | ⟨p, hp, -⟩ := exec_act_goes ho s
    · exact h.remembers
    · exact .same (by rw [hp]) (by rw [hp])
  | some program =>
    obtain ⟨m, lines, hm, hx⟩ | ⟨c, -, hx⟩ := exec_act_load_cases ho s
    · obtain ⟨hlen, rfl⟩ := Machine.load_eq_ok hm
      rw [loaded?, hx, ho]
      exact ⟨rfl, rfl, fun p hp => List.mem_singleton.mp hp ▸ hlen⟩
    · rw [loaded?, hx]
      exact .same rfl rfl

theorem remembered_after (s : Session σ) (ops : List (Operation σ)) :
    Remembers s (s.after ops) (s.loads ops) := by
  induction ops generalizing s with
  | nil => exact .same rfl rfl
  | cons o ops ih => exact (act_remembers s o).trans (ih _)

/-! ### The reset -/

theorem Kept.own_eq {k : RandomKey} (h : s.Kept k) :
    s.machine.rng = k.stream (s.trace.toList.countP Event.isReset) := by
  have hplaces : (Keyring.places s.trace.toList).map k.place = s.ring k := Keyring.places_map k _
  rw [h.1, ← hplaces]
  show k.place (Keyring.places s.trace.toList).own = _
  rw [Keyring.places, Keyring.after_own]
  exact RandomKey.place_stream k _

theorem exec_act_load_ok_iff {o : Operation σ} {p : List UInt8} (h : o.program? = some p)
    (s : Session σ) : (exec o.act s).1 = .ok () ↔ p.length ≤ 3584 := by
  obtain ⟨m, lines, hm, hx⟩ | ⟨c, hm, hx⟩ := exec_act_load_cases h s
  · rw [hx]
    exact ⟨fun _ => (Machine.load_eq_ok hm).1, fun _ => rfl⟩
  · rw [hx]
    refine ⟨nofun, fun hlen => ?_⟩
    rw [Machine.load_eq, if_neg (Nat.not_lt.mpr hlen)] at hm
    cases hm

/-- A load that fails leaves no trace, whether its program is too large or its file cannot be read. -/
theorem exec_act_load_error {o : Operation σ} {e : Failure} (h : o.isLoad = true)
    (he : (exec o.act s).1 = .error e) : (exec o.act s).2 = s := by
  cases ho : o.program? with
  | some p =>
    obtain ⟨m, lines, -, hx⟩ | ⟨c, -, hx⟩ := exec_act_load_cases ho s
    · rw [hx] at he
      cases he
    · rw [hx]
  | none =>
    cases o with
    | loadFile name contents =>
      cases contents with
      | ok p => cases ho
      | error e => rfl
    | load p => cases ho
    | _ => cases h

/-- **What a reset forgets.**  Whatever was done with a machine, a reset makes its state out of the mode, the
last program that was loaded and the number of resets so far, and of nothing else. -/
theorem reset_forgets {settings : Settings} {k : RandomKey} {s : Session σ}
    (hcreate : Machine.create settings k = .ok s.machine) (htrace : s.trace = #[])
    (ops : List (Operation σ)) :
    let t := s.after ops
    let n := t.trace.toList.countP Event.isReset
    let program := (s.loads ops).getLastD []
    t.machine.program = program ∧ t.machine.rng = k.stream n ∧
    (∃ a : State,
      (State.initial (k.subkey n) settings.legacyMode.truthy).load program = .ok a ∧
      exec reset t = (.ok (), { t with machine := { t.machine with
        state := a
        rng := k.stream (n + 1)
        frameCount := 0
        instructionCount := 0
        waiting := false } }.log [.wasReset])) ∧
    (∀ (o : Operation σ) (p : List UInt8), o.program? = some p →
      ((exec o.act t).1 = .ok () ↔ p.length ≤ 3584)) ∧
    ∀ (o : Operation σ) (e : Failure), o.isLoad = true → (exec o.act t).1 = .error e →
      (exec o.act t).2 = t := by
  intro t n program
  obtain ⟨rates, -, hm⟩ := Machine.create_eq_ok hcreate
  have hrunning : s.machine.running = false := by rw [hm]
  have hnone : s.machine.program = [] := by rw [hm]
  have hmemory : Remembers s t (s.loads ops) := remembered_after s ops
  have hprogram : t.machine.program = program := by rw [hmemory.program, hnone]
  have hmode : t.machine.legacy = settings.legacyMode.truthy := by rw [hmemory.legacy, hm]
  have hdone : Goes .none anything t (.ok ()) t := .done t
  have hkey : t.machine.rng = k.stream n := (ring_kept hcreate htrace ops hdone).own_eq
  refine ⟨hprogram, hkey, ?_, ?_, ?_⟩
  · have hfits : ¬ 3584 < program.length := by
      rw [← hprogram]
      refine Nat.not_lt.mpr (hmemory.length_le ?_)
      rw [hnone]
      exact Nat.zero_le _
    have hload : (State.initial (k.subkey n) settings.legacyMode.truthy).load program =
        .ok t.machine.renewed.state := by
      rw [State.load_eq, if_neg hfits, Machine.renewed, hkey, hmode, hprogram]
      rfl
    have hreset : t.machine.reset = .ok t.machine.renewed := by
      rw [Machine.reset_eq, hprogram, if_neg hfits]
    refine ⟨_, hload, ?_⟩
    rw [exec_reset_ok (rests_after ops hrunning) hreset, RandomKey.stream_succ, ← hkey]
    rfl
  · intro o p ho
    exact exec_act_load_ok_iff ho t
  · intro o e ho he
    exact exec_act_load_error ho he

/-- The first program writes behind itself and draws, the second one is shorter, and then there are a
reset, a program that is too large, a file that is missing, and a fault.  The next reset puts the second
program back. -/
theorem reset_forgets_shorter :
    let first : List UInt8 := [0xA2, 0x08, 0x60, 0xAB, 0xF0, 0x55, 0xC1, 0xFF]
    let second : List UInt8 := [0x00, 0xEE]
    let ops : List (Operation Unit) := [.load first, .step, .step, .step, .step, .load second,
      .reset, .load (List.replicate 3585 0), .loadFile "a" (.error (.notFound "a")), .step]
    Machine.create {} ⟨0, 0⟩ = .ok idling.machine ∧ idling.loads ops = [first, second] ∧
    (idling.after ops).machine.program = second ∧
    ∃ a u, (State.initial ((⟨0, 0⟩ : RandomKey).subkey 1) false).load second = .ok a ∧
      exec reset (idling.after ops) = (.ok (), u) ∧ u.machine.state = a := by
  intro first second ops
  have hcreate : Machine.create {} ⟨0, 0⟩ = .ok idling.machine := rfl
  have hloads : idling.loads ops = [first, second] := by decide +kernel
  have hlast : (idling.loads ops).getLastD [] = second := by
    rw [hloads]
    rfl
  have hcount : (idling.after ops).trace.toList.countP Event.isReset = 1 := by decide +kernel
  obtain ⟨hprogram, -, ⟨a, hload, hreset⟩, -⟩ := reset_forgets hcreate rfl ops
  rw [hlast] at hprogram hload
  rw [hcount] at hload
  exact ⟨hcreate, hloads, hprogram, a, _, hload, hreset, rfl⟩

end Session

end Chip8
