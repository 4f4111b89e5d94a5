import Chip8.Proofs.Session.Account

/-!
# How an action of quiet devices can end

Among devices that ask for no run and no reset, the events of an action say whether the machine still
runs afterwards, and there are few things besides a fault that can keep the action from its end.

* `Goes.running_iff`   a running machine runs on exactly if nobody stops it;
* `Obstacle`           a change that the keypad refuses, or a setting that is of no use;
* `Goes.outcome`       nothing else can go wrong.
-/

namespace Chip8

namespace Event

def fault? : Event → Option Fault
  | faulted f => some f
  | _ => none

theorem mem_filterMap_fault? {f : Fault} {es : List Event} :
    f ∈ es.filterMap fault? ↔ .faulted f ∈ es := by
  constructor
  · intro h
    obtain ⟨e, he, hfault⟩ := List.mem_filterMap.mp h
    cases e with
    | faulted g =>
      cases hfault
      exact he
    | _ => cases hfault
  · exact fun h => List.mem_filterMap.mpr ⟨_, h, rfl⟩

end Event

namespace Session

variable {σ : Type} {devices : Peripherals σ} {asks : Request → Prop} {s t : Session σ}
  {r : Except Failure Unit}

/-! ### Is the machine still running? -/

theorem Move.running_iff (hasks : ∀ q, asks q → q.isQuiet = true) (h : Move devices asks s t) :
    ∃ es : List Event, t.trace = s.trace ++ es.toArray ∧
      (t.machine.running = true ↔ s.machine.running = true ∧ .stopped ∉ es) := by
  cases h with
  | aside es he htrace hmachine hdevices hscript =>
    refine ⟨es, htrace, ?_⟩
    rw [hmachine]
    exact ⟨fun h => ⟨h, fun hmem => by cases he _ hmem⟩, And.left⟩
  | @call e _ h =>
    refine ⟨[e], rfl, fun hrun => ⟨hrun, fun hmem => ?_⟩, And.left⟩
    rw [← List.mem_singleton.mp hmem] at h
    cases h
  | keypad p => exact ⟨[], by simp, by simp⟩
  | step h => exact ⟨[.executed _], rfl, by simp [Machine.stepped]⟩
  | sync => exact ⟨[.synced _], rfl, by simp [Machine.syncKeypad]⟩
  | tick => exact ⟨[.ticked], rfl, by simp [Machine.tick, log]⟩
  | count => exact ⟨[], by simp, by simp⟩
  | stop => exact ⟨[.stopped], rfl, by simp [Machine.stop, log]⟩
  | reset h => cases hasks _ h
  | enter h | leave h => cases hasks _ h

/-- A machine that runs goes on running exactly if nobody stops it. -/
theorem Goes.running_iff (hasks : ∀ q, asks q → q.isQuiet = true) (h : Goes devices asks s (.ok ()) t) :
    t.machine.running = true ↔ s.machine.running = true ∧ .stopped ∉ since s t := by
  suffices h' : ∃ es : List Event, t.trace = s.trace ++ es.toArray ∧
      (t.machine.running = true ↔ s.machine.running = true ∧ .stopped ∉ es) by
    obtain ⟨es, htrace, hrun⟩ := h'
    rw [since_eq htrace]
    exact hrun
  generalize hok : Except.ok () = r at h
  induction h with
  | done s => exact ⟨[], by simp, by simp⟩
  | move hm _ ih =>
    obtain ⟨es, htrace, hrun⟩ := hm.running_iff hasks
    obtain ⟨fs, htrace', hrun'⟩ := ih hok
    refine ⟨es ++ fs, ?_, ?_⟩
    · rw [htrace', htrace, Array.append_assoc, List.append_toArray es]
    · rw [hrun', hrun, List.mem_append, not_or, and_assoc]
  | _ => cases hok

/-! ### What can go wrong? -/

/-- What else than a fault can keep an action of quiet devices from its end. -/
inductive Obstacle (asks : Request → Prop) (s : Session σ) : Failure → Prop
  /-- A device may ask for a change that the keypad refuses. -/
  | request {c : Keypad.Change} {p : Keypad} {e : Keypad.Error} (hc : asks (.keypad c))
      (h : p.change c = .error e) : Obstacle asks s (.keypad e)
  /-- The script has a change that the keypad refuses. -/
  | script {cs : List Keypad.Change} {c : Keypad.Change} {p : Keypad} {e : Keypad.Error}
      (hcs : cs ∈ s.script) (hc : c ∈ cs) (h : p.change c = .error e) :
      Obstacle asks s (.keypad e)
  /-- The rates are too large for times. -/
  | rates {e : Number.Overflow} (h : Number.doubleLimit ≤ s.machine.rates.frequency) :
      Obstacle asks s (.overflow e)
  /-- The interval of the statistics is no number. -/
  | interval {e : Misuse} (h : s.machine.settings.logInterval.int? = none) :
      Obstacle asks s (.misuse e)

/-- What is an obstacle later on has been one before. -/
theorem Move.obstacle (hasks : ∀ q, asks q → q.isQuiet = true) (h : Move devices asks s t)
    {e : Failure} (he : Obstacle asks t e) : Obstacle asks s e := by
  obtain ⟨hscript, hrates, hsettings⟩ : t.script <:+ s.script ∧
      t.machine.rates = s.machine.rates ∧ t.machine.settings = s.machine.settings := by
    cases h with
    | aside es he htrace hmachine hdevices hscript =>
      exact ⟨hscript, by rw [hmachine], by rw [hmachine]⟩
    | reset h | enter h | leave h => cases hasks _ h
    | _ => exact ⟨List.suffix_refl _, rfl, rfl⟩
  cases he with
  | request hc h => exact .request hc h
  | script hcs hc h => exact .script (hscript.mem hcs) hc h
  | rates h => exact .rates (hrates ▸ h)
  | interval h => exact .interval (hsettings ▸ h)

/-- If changes are refused, then one of them is. -/
theorem exists_refused {cs : List Keypad.Change} {p : Keypad} {e : Keypad.Error}
    (h : p.changeAll cs = .error e) : ∃ c ∈ cs, ∃ q : Keypad, q.change c = .error e := by
  induction cs generalizing p with
  | nil => cases h
  | cons c cs ih =>
    rw [Keypad.changeAll_cons] at h
    cases hc : p.change c with
    | error e' =>
      rw [hc] at h
      cases h
      exact ⟨c, List.mem_cons_self, p, hc⟩
    | ok q =>
      rw [hc] at h
      obtain ⟨c', hmem, h'⟩ := ih h
      exact ⟨c', List.mem_cons_of_mem c hmem, h'⟩

theorem Obstacle.of_scripted {e : Keypad.Error} (h : s.scripted = .error e) :
    Obstacle asks s (.keypad e) := by
  rw [scripted, Keypad.scripted] at h
  cases hs : s.script with
  | nil =>
    rw [hs] at h
    cases h
  | cons cs rest =>
    rw [hs] at h
    obtain ⟨c, hc, p, hp⟩ := exists_refused h
    have hmem : cs ∈ s.script := hs ▸ List.mem_cons_self
    exact .script hmem hc hp

/-- An action of quiet devices comes to its end, or an instruction faults, or there is an obstacle. -/
theorem Goes.outcome (hasks : ∀ q, asks q → q.isQuiet = true) (h : Goes devices asks s r t) :
    r = .ok () ∨ (∃ f, .faulted f ∈ since s t) ∨ ∃ e, r = .error e ∧ Obstacle asks s e := by
  induction h with
  | done s => exact .inl rfl
  | @move s t u r hm hrest ih =>
    obtain hr | ⟨f, hf⟩ | ⟨e, hr, he⟩ := ih
    · exact .inl hr
    · obtain ⟨es, htrace, -⟩ := hm.account
      rw [since_trans htrace hrest.account.trace]
      exact .inr (.inl ⟨f, List.mem_append_right _ hf⟩)
    · exact .inr (.inr ⟨e, hr, hm.obstacle hasks he⟩)
  | @fault s f h lines =>
    refine .inr (.inl ⟨f, ?_⟩)
    rw [since_eq rfl]
    exact List.mem_cons_self
  | script h p => exact .inr (.inr ⟨_, rfl, .of_scripted h⟩)
  | @raise s e h =>
    refine .inr (.inr ⟨e, rfl, ?_⟩)
    cases h with
    | @refused q e hq h =>
      cases q with
      | keypad c => exact .request hq h
      | _ => cases h
    | noTime h =>
      refine .rates (Nat.le_of_not_lt fun hlt => ?_)
      rw [Pace.ofRates_eq hlt] at h
      cases h
    | noInterval h => exact .interval h
    | asked h =>
      obtain h | h := h
      · cases hasks _ h
      · cases hasks _ h
  | leave h => cases hasks _ h

end Session

end Chip8
