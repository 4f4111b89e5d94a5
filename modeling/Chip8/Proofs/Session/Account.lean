import Chip8.Proofs.Session.Moves

/-!
# The trace accounts for the machine

The events of a session say what became of its machine: of the emulated state, the counters of
instructions, the waiting flag, the random key.  The live keypad, the running flag and the number of
frames are not told by them.

* `Machine.follow`    the machine after an event;
* `Machine.Agrees`    two machines that differ in what events do not tell;
* `Session.Account`   the events of an action lead from its first machine to its last one, and a
                      fault among them is the end: the action fails with it, and after it there is
                      only talk.

The main statement is `Goes.account`.
-/

namespace Chip8

/-! ### The machine after an event -/

namespace Machine

def follow (m : Machine) : Event → Machine
  | .executed _ =>
    match m.step with
    | .ok (m', _) => m'
    | .error _ => m
  | .synced keys => { m with state := { m.state with keys } }
  | .ticked => m.tick
  | .wasReset =>
    match m.reset with
    | .ok m' => m'
    | .error _ => m
  | _ => m

def Agrees (m m' : Machine) : Prop :=
  m = { m' with keypad := m.keypad, running := m.running, frameCount := m.frameCount }

variable {m m' m'' : Machine}

theorem Agrees.refl (m : Machine) : m.Agrees m := rfl

theorem Agrees.trans (h : m.Agrees m') (h' : m'.Agrees m'') : m.Agrees m'' := by
  unfold Agrees at h h' ⊢
  rw [h, h']

theorem follow_executed {a : State} {w w' : UInt16} (h : m.state.step = .ok (a, w)) :
    m.follow (.executed w') = m.stepped a w := by
  have hm : m.step = .ok (m.stepped a w, w) := by rw [step_eq, h]; rfl
  rw [follow, hm]

theorem follow_wasReset (h : m.reset = .ok m') : m.follow .wasReset = m' := by rw [follow, h]

/-- Only the state, the program and the random key play a part in what an event makes. -/
theorem Agrees.follow (h : m.Agrees m') (e : Event) : (m.follow e).Agrees (m'.follow e) := by
  unfold Agrees at h
  generalize m.keypad = keypad, m.running = running, m.frameCount = frameCount at h
  subst h
  cases e with
  | executed w =>
    have hstep : ({ m' with keypad, running, frameCount } : Machine).state.step =
      m'.state.step := rfl
    cases hs : m'.state.step with
    | ok r =>
      rw [follow_executed (hstep.trans hs), follow_executed hs]
      rfl
    | error f =>
      have hm : m'.step = .error f := by rw [step_eq, hs]; rfl
      have hm' : ({ m' with keypad, running, frameCount } : Machine).step = .error f := by
        rw [step_eq, hstep, hs]
        rfl
      rw [Machine.follow, hm', Machine.follow, hm]
      rfl
  | wasReset =>
    cases hs : (State.initial m'.rng.split.2 m'.legacy).load m'.program with
    | ok s =>
      simp only [Machine.follow, reset, hs]
      rfl
    | error c =>
      simp only [Machine.follow, reset, hs]
      rfl
  | _ => rfl

theorem Agrees.foldl (h : m.Agrees m') (es : List Event) :
    (es.foldl Machine.follow m).Agrees (es.foldl Machine.follow m') := by
  induction es generalizing m m' with
  | nil => exact h
  | cons e es ih => exact ih (h.follow e)

/-- An event that is not about the state leaves the machine alone. -/
theorem follow_of_idle {e : Event} (h : e.isIdle = true) (m : Machine) : m.follow e = m := by
  cases e with
  | executed _ | faulted _ | synced _ | ticked | wasReset => cases h
  | _ => rfl

theorem foldl_follow_of_idle {es : List Event} (h : ∀ e ∈ es, e.isIdle = true) (m : Machine) :
    es.foldl follow m = m := by
  induction es with
  | nil => rfl
  | cons e es ih =>
    rw [List.foldl_cons, follow_of_idle (h e List.mem_cons_self)]
    exact ih fun e' he' => h e' (List.mem_cons_of_mem e he')

/-- Remarks may be left out. -/
theorem foldl_follow_filter (es : List Event) (m : Machine) :
    (es.filter (!·.isRemark)).foldl follow m = es.foldl follow m := by
  induction es generalizing m with
  | nil => rfl
  | cons e es ih =>
    cases he : e.isRemark with
    | true =>
      have hidle : e.isIdle = true := by
        cases e with
        | executed _ | faulted _ | synced _ | ticked | wasReset => cases he
        | _ => rfl
      rw [List.filter_cons_of_neg (by simp [he]), List.foldl_cons, follow_of_idle hidle]
      exact ih m
    | false =>
      rw [List.filter_cons_of_pos (by simp [he]), List.foldl_cons, List.foldl_cons]
      exact ih _

end Machine

namespace Event

theorem isIdle_of_isAside {e : Event} (h : e.isAside = true) : e.isIdle = true := by
  cases e with
  | executed _ | faulted _ | synced _ | ticked | wasReset => cases h
  | _ => rfl

/-- A call to the devices is not about the state. -/
theorem isIdle_of_callback {σ : Type} {devices : Peripherals σ} {e : Event} {c : Callback σ}
    (h : devices.callback? e = some c) : e.isIdle = true := by
  cases e with
  | executed _ | faulted _ | synced _ | ticked | wasReset => cases h
  | _ => rfl

/-- What may come after a fault: lines of the log, and the end of a run. -/
def isTalk : Event → Bool
  | printed _ | ended => true
  | _ => false

end Event

/-! ### The account of an action -/

namespace Session

variable {σ : Type} {devices : Peripherals σ} {asks : Request → Prop} {s t u : Session σ}
  {r : Except Failure Unit} {es fs : List Event}

/-- What happened from `s` on until `t`. -/
def since (s t : Session σ) : List Event := t.trace.toList.drop s.trace.size

theorem since_eq (h : t.trace = s.trace ++ es.toArray) : since s t = es := by
  rw [since, h, Array.toList_append, ← Array.length_toList, List.drop_left]

theorem since_nil (h : t.trace = s.trace) : since s t = [] := since_eq (by simp [h])

theorem since_self (s : Session σ) : since s s = [] := since_nil rfl

theorem since_trans (h : t.trace = s.trace ++ es.toArray) (h' : u.trace = t.trace ++ fs.toArray) :
    since s u = since s t ++ since t u := by
  have hu : u.trace = s.trace ++ (es ++ fs).toArray := by
    rw [h', h, Array.append_assoc, List.append_toArray es]
  rw [since_eq h, since_eq h', since_eq hu]

/-- The same has happened since the traces `S` and `T`, as far as it counts for `f`. -/
def SameSince (f : Event → Option Event) (S T : Array Event) (s t : Session σ) : Prop :=
  ∃ es fs : List Event, s.trace = S ++ es.toArray ∧ t.trace = T ++ fs.toArray ∧
    es.filterMap f = fs.filterMap f

namespace SameSince

variable {f : Event → Option Event} {S T : Array Event}

theorem begin (s t : Session σ) : SameSince f s.trace t.trace s t :=
  ⟨[], [], by simp, by simp, rfl⟩

theorem log (h : SameSince f S T s t) (hlog : es.filterMap f = fs.filterMap f) :
    SameSince f S T (s.log es) (t.log fs) := by
  obtain ⟨es', fs', hs, ht, heq⟩ := h
  refine ⟨es' ++ es, fs' ++ fs, ?_, ?_, ?_⟩
  · simp [Session.log, hs, Array.append_assoc]
  · simp [Session.log, ht, Array.append_assoc]
  · rw [List.filterMap_append, List.filterMap_append, heq, hlog]

theorem since_eq {v : Session σ} (h : SameSince f s.trace t.trace u v) :
    (since s u).filterMap f = (since t v).filterMap f := by
  obtain ⟨es, fs, hu, hv, heq⟩ := h
  rw [Session.since_eq hu, Session.since_eq hv, heq]

end SameSince

/-- A fault is among the events only if it is the result, and then it is the last but for talk. -/
def FaultEnds (r : Except Failure Unit) (es : List Event) : Prop :=
  ∀ f, .faulted f ∈ es → r = .error (.fault f) ∧
    ∃ pre post, es = pre ++ .faulted f :: post ∧ (∀ g, .faulted g ∉ pre) ∧
      ∀ e ∈ post, e.isTalk = true

structure Account (s : Session σ) (r : Except Failure Unit) (t : Session σ) (es : List Event) :
    Prop where
  trace : t.trace = s.trace ++ es.toArray
  machine : t.machine.Agrees (es.foldl Machine.follow s.machine)
  fault : FaultEnds r es

theorem FaultEnds.nil (r : Except Failure Unit) : FaultEnds r [] := nofun

theorem FaultEnds.append (h : ∀ f, .faulted f ∉ es) (h' : FaultEnds r fs) :
    FaultEnds r (es ++ fs) := by
  intro f hf
  rcases List.mem_append.mp hf with hf | hf
  · exact absurd hf (h f)
  · obtain ⟨hr, pre, post, rfl, hpre, hpost⟩ := h' f hf
    refine ⟨hr, es ++ pre, post, (List.append_assoc ..).symm, ?_, hpost⟩
    intro g hg
    rcases List.mem_append.mp hg with hg | hg
    · exact h g hg
    · exact hpre g hg

theorem FaultEnds.talk (h : FaultEnds r es) (hfs : ∀ e ∈ fs, e.isTalk = true) :
    FaultEnds r (es ++ fs) := by
  intro f hf
  rcases List.mem_append.mp hf with hf | hf
  · obtain ⟨hr, pre, post, rfl, hpre, hpost⟩ := h f hf
    refine ⟨hr, pre, post ++ fs, List.append_assoc .., hpre, ?_⟩
    intro e he
    rcases List.mem_append.mp he with he | he
    · exact hpost e he
    · exact hfs e he
  · cases hfs _ hf

/-- A move is told by events without a fault. -/
theorem Move.account (h : Move devices asks s t) : ∃ es : List Event,
    t.trace = s.trace ++ es.toArray ∧ t.machine.Agrees (es.foldl Machine.follow s.machine) ∧
      ∀ f, .faulted f ∉ es := by
  cases h with
  | aside es he htrace hmachine hdevices hscript =>
    refine ⟨es, htrace, ?_, fun f hf => ?_⟩
    · rw [hmachine, Machine.foldl_follow_of_idle fun e h => Event.isIdle_of_isAside (he e h)]
      exact .refl _
    · cases he _ hf
  | @call e _ h =>
    have hidle := Event.isIdle_of_callback h
    refine ⟨[e], rfl, ?_, fun f hf => ?_⟩
    · rw [Machine.foldl_follow_of_idle fun e' h' => List.mem_singleton.mp h' ▸ hidle]
      exact .refl _
    · cases List.mem_singleton.mp hf ▸ hidle
  | keypad p => exact ⟨[], by simp, rfl, nofun⟩
  | step h =>
    refine ⟨[.executed _], rfl, ?_, by simp⟩
    rw [List.foldl_cons, List.foldl_nil, Machine.follow_executed h]
    exact .refl _
  | sync => exact ⟨[.synced _], rfl, rfl, by simp⟩
  | tick => exact ⟨[.ticked], rfl, rfl, by simp⟩
  | count => exact ⟨[], by simp, rfl, nofun⟩
  | stop => exact ⟨[.stopped], rfl, rfl, by simp⟩
  | reset h hs hm =>
    refine ⟨[.wasReset], rfl, ?_, by simp⟩
    rw [List.foldl_cons, List.foldl_nil, Machine.follow_wasReset hm]
    exact .refl _
  | enter h hs =>
    obtain ⟨lines, htrace⟩ := s.entered_trace
    refine ⟨_, htrace, ?_, by simp⟩
    rw [Machine.foldl_follow_of_idle (by simp [Event.isIdle])]
    rfl
  | leave h =>
    obtain ⟨lines, htrace⟩ := s.left_trace
    refine ⟨_, htrace, ?_, by simp⟩
    rw [Machine.foldl_follow_of_idle (by simp [Event.isIdle])]
    rfl

theorem Account.of_since (h : Account s r t es) : Account s r t (since s t) := by
  rw [since_eq h.trace]
  exact h

/-- **The trace accounts for the machine.** -/
theorem Goes.account (h : Goes devices asks s r t) : Account s r t (since s t) := by
  suffices h' : ∃ es, Account s r t es by
    obtain ⟨es, h'⟩ := h'
    exact h'.of_since
  induction h with
  | done s => exact ⟨[], by simp, .refl _, .nil _⟩
  | move hm _ ih =>
    obtain ⟨es, htrace, hmachine, hfault⟩ := hm.account
    obtain ⟨fs, ha⟩ := ih
    refine ⟨es ++ fs, ?_, ?_, ha.fault.append hfault⟩
    · rw [ha.trace, htrace, Array.append_assoc, List.append_toArray es]
    · rw [List.foldl_append]
      exact ha.machine.trans (hmachine.foldl fs)
  | @fault s f h lines =>
    refine ⟨.faulted f :: lines.map .printed, rfl, ?_, ?_⟩
    · have hidle : (lines.map Event.printed).foldl Machine.follow s.machine = s.machine :=
        Machine.foldl_follow_of_idle (by simp [Event.isIdle]) _
      show Machine.Agrees _ ((lines.map Event.printed).foldl Machine.follow s.machine)
      rw [hidle]
      rfl
    · intro g hg
      have hg : g = f := by simpa using hg
      subst hg
      exact ⟨rfl, [], _, rfl, nofun, by simp [Event.isTalk]⟩
  | script h p => exact ⟨[], by simp, rfl, .nil _⟩
  | raise h => exact ⟨[], by simp, .refl _, .nil _⟩
  | @leave h s t e _ ih =>
    obtain ⟨es, ha⟩ := ih
    obtain ⟨lines, htrace⟩ := t.left_trace
    refine ⟨es ++ .ended :: lines.map .printed, ?_, ?_, ha.fault.talk (by simp [Event.isTalk])⟩
    · rw [htrace, ha.trace, Array.append_assoc, List.append_toArray es]
    · have hidle (m : Machine) : (Event.ended :: lines.map .printed).foldl Machine.follow m = m :=
        Machine.foldl_follow_of_idle (by simp [Event.isIdle]) m
      rw [List.foldl_append, hidle]
      exact Machine.Agrees.trans rfl ha.machine

end Session

end Chip8
