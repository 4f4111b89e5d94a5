import Chip8.Proofs.Session.Exec
import Chip8.Proofs.Session.Replay

/-!
# Bursts

A burst is a loop that goes on in rounds; a round may leave the count of instructions as it is, and
still the loop ends.

* `Passage`          what happened between two sessions, and that the state went along with it;
* `rounds`           the loop with a bound on its rounds;
* `Course`           the events of a burst: at most one wait, and only steps after it;
* `room`             how many steps are still to come: a step that only begins a key wait needs a
                     snapshot without keys, and the wait that follows ends the burst or leaves one
                     with keys;
* `Done`             all there is to say about the rest of a burst.

`Done` is proved by induction on the rounds that are left (`Enough`).  From it, `burst_eq_rounds` says
that the loop is a bounded one, and `burst_done` says what it does.
-/

namespace Chip8.Session

variable {σ : Type}

/-! ### What happened between two sessions -/

/-- The events from `s` to `t`, the remarks among them left out. -/
def Happened (s t : Session σ) (es : List Event) : Prop :=
  ∃ all : List Event, t.trace = s.trace ++ all.toArray ∧ all.filter (!·.isRemark) = es

theorem Happened.trans {s t u : Session σ} {es fs : List Event} (h : Happened s t es)
    (h' : Happened t u fs) : Happened s u (es ++ fs) := by
  obtain ⟨all, ht, rfl⟩ := h
  obtain ⟨all', hu, rfl⟩ := h'
  refine ⟨all ++ all', ?_, List.filter_append _ _⟩
  rw [hu, ht, Array.append_assoc, List.append_toArray all all']

/-- Nothing happened but remarks. -/
theorem Happened.remarks {s t : Session σ} (rs : List Event) (h : ∀ e ∈ rs, e.isRemark = true)
    (ht : t.trace = s.trace ++ rs.toArray) : Happened s t [] :=
  ⟨rs, ht, List.filter_eq_nil_iff.mpr fun e he => by simp [h e he]⟩

theorem Happened.nothing {s t : Session σ} (h : t.trace = s.trace) : Happened s t [] :=
  .remarks [] nofun (by simp [h])

/-- From `s` to `t` the events `es` happened, and the machine went along with them: its state is
what they say, `n` instructions were completed, and no frame was. -/
structure Passage (s t : Session σ) (es : List Event) (n : Nat) : Prop where
  happened : Happened s t es
  replay : s.machine.state.Replay es t.machine.state n
  instructions : t.machine.instructionCount = s.machine.instructionCount + n
  frames : t.machine.frameCount = s.machine.frameCount

namespace Passage

variable {s t u : Session σ} {es fs : List Event} {m n : Nat}

theorem refl (s : Session σ) : Passage s s [] 0 where
  happened := .nothing rfl
  replay := .nil _
  instructions := rfl
  frames := rfl

theorem trans (h : Passage s t es m) (h' : Passage t u fs n) : Passage s u (es ++ fs) (m + n) where
  happened := h.happened.trans h'.happened
  replay := h.replay.append h'.replay
  instructions := by rw [h'.instructions, h.instructions, Nat.add_assoc]
  frames := h'.frames.trans h.frames

/-- A passage with nothing but remarks. -/
theorem aside (rs : List Event) (hr : ∀ e ∈ rs, e.isRemark = true)
    (htrace : t.trace = s.trace ++ rs.toArray) (hstate : t.machine.state = s.machine.state)
    (hcount : t.machine.instructionCount = s.machine.instructionCount)
    (hframes : t.machine.frameCount = s.machine.frameCount) : Passage s t [] 0 where
  happened := .remarks rs hr htrace
  replay := hstate ▸ .nil _
  instructions := hcount
  frames := hframes

end Passage

/-- The snapshot of the keys is the same, and so is the keypad that a wait would find. -/
structure Steady (s t : Session σ) : Prop where
  keys : t.machine.state.keys = s.machine.state.keys
  live : t.scripted = s.scripted

theorem Steady.trans {s t u : Session σ} (h : Steady s t) (h' : Steady t u) : Steady s u where
  keys := h'.keys.trans h.keys
  live := h'.live.trans h.live

/-- A step faults, or begins a key wait because no key is down, or completes an instruction. -/
theorem step_cases (s : Session σ) :
    (∃ f t, exec step s = (.error (.fault f), t) ∧ Passage s t [.faulted f] 0) ∨
    (∃ w t, exec step s = (.ok false, t) ∧ Passage s t [.executed w] 0 ∧ Steady s t ∧
      t.machine.waiting = true ∧ s.machine.state.keys.any = false) ∨
    ∃ w t, exec step s = (.ok true, t) ∧ Passage s t [.executed w] 1 ∧ Steady s t ∧
      t.machine.waiting = false := by
  cases hs : s.machine.state.step with
  | error f =>
    obtain ⟨lines, hx⟩ := exec_step_error hs
    refine .inl ⟨f, _, hx, ?_⟩
    exact ⟨⟨.faulted f :: lines.map .printed, rfl, by simp [Event.isRemark]⟩,
      .faulted hs (.nil _), rfl, rfl⟩
  | ok r =>
    obtain ⟨a, w⟩ := r
    have hx := exec_step_ok hs
    have hhappened : Happened s { s.log [.executed w] with machine := s.machine.stepped a w }
        [.executed w] := ⟨[.executed w], rfl, rfl⟩
    cases hw : s.machine.state.waits a w with
    | true =>
      rw [hw] at hx
      have hcount : (s.machine.stepped a w).instructionCount = s.machine.instructionCount := by
        rw [Machine.stepped, hw]
        rfl
      exact .inr (.inl ⟨w, _, hx, ⟨hhappened, .held hs hw (.nil a), hcount, rfl⟩,
        ⟨State.step_keys hs, rfl⟩, hw, State.keys_of_waits hs hw⟩)
    | false =>
      rw [hw] at hx
      have hcount : (s.machine.stepped a w).instructionCount = s.machine.instructionCount + 1 := by
        rw [Machine.stepped, hw]
        rfl
      exact .inr (.inr ⟨w, _, hx, ⟨hhappened, .completed hs hw (.nil a), hcount, rfl⟩,
        ⟨State.step_keys hs, rfl⟩, hw⟩)

/-- A wait fails with its script, or ends without a key, or with the keys that are
then copied. -/
theorem awaitKey_cases (p : Pace) (s : Session σ) : ∃ timeout : Float,
    (∃ e t, exec (awaitKey p) s = (.error (.keypad e), t) ∧ Passage s t [.awaited timeout] 0) ∨
    (∃ t, exec (awaitKey p) s = (.ok false, t) ∧ Passage s t [.awaited timeout] 0 ∧
      t.machine.waiting = s.machine.waiting) ∨
    ∃ q t, exec (awaitKey p) s = (.ok true, t) ∧ s.scripted = .ok q ∧ q.keys.any = true ∧
      Passage s t [.awaited timeout, .synced q.keys] 0 ∧ t.machine.state.keys = q.keys := by
  refine ⟨p.timeout s.clock, ?_⟩
  cases hq : s.scripted with
  | error e =>
    obtain ⟨k, hx⟩ := exec_followScript_error (s := s.log [.awaited (p.timeout s.clock)]) hq
    refine .inl ⟨e, _, exec_awaitKey_error hx, ?_⟩
    exact ⟨⟨[.awaited _], rfl, rfl⟩, .idle rfl (.nil _), rfl, rfl⟩
  | ok q =>
    have hx := exec_awaitKey_ok hq p
    cases hk : q.keys.any with
    | false =>
      rw [hk] at hx
      exact .inr (.inl ⟨_, hx, ⟨⟨[.awaited _], rfl, rfl⟩, .idle rfl (.nil _), rfl, rfl⟩, rfl⟩)
    | true =>
      rw [hk] at hx
      have hlog := s.log_log [.awaited (p.timeout s.clock)] [.synced q.keys]
      exact .inr (.inr ⟨q, _, hx, rfl, hk,
        ⟨⟨[.awaited _, .synced q.keys], congrArg trace hlog, rfl⟩,
          .idle rfl (.synced (.nil _)), rfl, rfl⟩, rfl⟩)

/-- Sleeping changes the clock only. -/
theorem sleepUntil_cases (p : Pace) (moment : Float) (s : Session σ) :
    ∃ t, exec (p.sleepUntil moment : Act σ) s = (.ok (), t) ∧ Passage s t [] 0 ∧ Steady s t ∧
      t.machine = s.machine := by
  obtain ⟨sleeps, clock, hx⟩ := exec_sleepUntil p moment s
  refine ⟨_, hx, ?_, ⟨rfl, rfl⟩, rfl⟩
  exact .aside (sleeps.map .slept) (by simp [Event.isRemark]) rfl rfl rfl rfl

/-! ### The rounds of a burst -/

/-- The rest of a burst, when `executed` instructions are behind. -/
def burstFrom (p : Pace) (total executed : Nat) : Act σ := do
  let mut executed := executed
  while executed < total do
    match ← round p with
    | .held => break
    | .waits => continue
    | .completed =>
      executed := executed + 1
      p.sleepUntil (p.start + Float.ofNat executed * p.period)

/-- One round of the loop, and the rest of it. -/
theorem burstFrom_eq [Nonempty (Session σ)] (p : Pace) (total executed : Nat) :
    (burstFrom p total executed : Act σ) =
      if executed < total then do
        match ← round p with
        | .held => pure ()
        | .waits => burstFrom p total executed
        | .completed =>
          p.sleepUntil (p.start + Float.ofNat (executed + 1) * p.period)
          burstFrom p total (executed + 1)
      else pure () := by
  -- the loop has no equation of its own; as `repeatM` it has one, for monads like this
  rw [burstFrom]
  show (repeatM _ executed >>= _) = _
  rw [repeatM_eq_of_monadTail, repeatM.body]
  by_cases h : executed < total
  · simp only [if_pos h, bind_assoc]
    refine bind_congr fun r => ?_
    cases r with
    | held => simp only [pure_bind]
    | waits =>
      simp only [pure_bind]
      rfl
    | completed =>
      simp only [bind_assoc, pure_bind]
      rfl
  · simp only [if_neg h, pure_bind]

/-- The same with at most `n` rounds.  A burst that needs more fails as unfinished. -/
def rounds (p : Pace) (total : Nat) : (n : Nat) → (executed : Nat) → Act σ
  | 0, executed => if executed < total then throw .unfinished else pure ()
  | n + 1, executed =>
    if executed < total then do
      match ← round p with
      | .held => pure ()
      | .waits => rounds p total n executed
      | .completed =>
        p.sleepUntil (p.start + Float.ofNat (executed + 1) * p.period)
        rounds p total n (executed + 1)
    else pure ()

/-- Rounds that come to an end are those of the loop. -/
theorem exec_burstFrom (p : Pace) (total : Nat) {n : Nat} : ∀ {executed : Nat} {s : Session σ},
    (exec (rounds p total n executed) s).1 ≠ .error .unfinished →
      exec (burstFrom p total executed) s = exec (rounds p total n executed) s := by
  induction n with
  | zero =>
    intro executed s h
    have : Nonempty (Session σ) := ⟨s⟩
    rw [burstFrom_eq]
    rw [rounds] at h ⊢
    by_cases hlt : executed < total
    · rw [if_pos hlt] at h
      exact absurd rfl h
    · rw [if_neg hlt, if_neg hlt]
  | succ n ih =>
    intro executed s h
    have : Nonempty (Session σ) := ⟨s⟩
    rw [burstFrom_eq]
    rw [rounds] at h ⊢
    by_cases hlt : executed < total
    · simp only [if_pos hlt] at h ⊢
      cases hr : exec (round p) s with
      | mk r t =>
        cases r with
        | error e => rw [exec_bind_error hr, exec_bind_error hr]
        | ok r =>
          rw [exec_bind_ok hr] at h ⊢
          rw [exec_bind_ok hr]
          cases r with
          | held => rfl
          | waits => exact ih h
          | completed =>
            obtain ⟨sleeps, clock, hs⟩ :=
              exec_sleepUntil p (p.start + Float.ofNat (executed + 1) * p.period) t
            dsimp only at h ⊢
            rw [exec_bind_ok hs] at h ⊢
            rw [exec_bind_ok hs]
            exact ih h
    · rw [if_neg hlt, if_neg hlt]

/-! ### What a burst does -/

/-- The events of a burst: steps, at most one wait, and steps again only if the wait ended with a
key.  `live` is the keypad that a wait would find. -/
inductive Course (live : Except Keypad.Error Keypad) : List Event → Prop
  | straight {es : List Event} (hes : ∀ e ∈ es, e.isStep = true) : Course live es
  | unanswered (es : List Event) (hes : ∀ e ∈ es, e.isStep = true) (timeout : Float) :
      Course live (es ++ [.awaited timeout])
  | answered (es : List Event) {fs : List Event} {q : Keypad} (hes : ∀ e ∈ es, e.isStep = true)
      (timeout : Float) (hq : live = .ok q) (hkeys : q.keys.any = true)
      (hfs : ∀ e ∈ fs, e.isStep = true) :
      Course live (es ++ .awaited timeout :: .synced q.keys :: fs)

theorem Course.cons {live : Except Keypad.Error Keypad} {e : Event} {es : List Event}
    (h : Course live es) (he : e.isStep = true) : Course live (e :: es) := by
  cases h with
  | straight hes => exact .straight (List.forall_mem_cons.mpr ⟨he, hes⟩)
  | unanswered es hes timeout =>
    exact .unanswered (_ :: es) (List.forall_mem_cons.mpr ⟨he, hes⟩) timeout
  | answered es hes timeout hq hkeys hfs =>
    exact .answered (_ :: es) (List.forall_mem_cons.mpr ⟨he, hes⟩) timeout hq hkeys hfs

/-- A course has one wait at most. -/
theorem Course.waits {live : Except Keypad.Error Keypad} {es : List Event} (h : Course live es) :
    es.countP Event.isAwaited ≤ 1 := by
  have hzero {es : List Event} (hes : ∀ e ∈ es, e.isStep = true) : es.countP Event.isAwaited = 0 :=
    List.countP_eq_zero.mpr fun e he => Event.not_isAwaited (hes e he)
  cases h with
  | straight hes => simp [hzero hes]
  | unanswered es hes timeout => simp [hzero hes, Event.isAwaited]
  | answered es hes timeout hq hkeys hfs =>
    simp [List.countP_cons, hzero hes, hzero hfs, Event.isAwaited]

/-- The keys of a course are copied once at most, and some key is down then. -/
theorem Course.copies {live : Except Keypad.Error Keypad} {es : List Event} (h : Course live es) :
    es.filterMap Event.synced? = [] ∨
      ∃ keys : Keys, es.filterMap Event.synced? = [keys] ∧ keys.any = true := by
  have hnil {es : List Event} (hes : ∀ e ∈ es, e.isStep = true) :
      es.filterMap Event.synced? = [] :=
    List.filterMap_eq_nil_iff.mpr fun e he => Event.synced?_eq_none (hes e he)
  cases h with
  | straight hes => exact .inl (hnil hes)
  | unanswered es hes timeout =>
    rw [List.filterMap_append, hnil hes]
    exact .inl rfl
  | @answered es _ q hes timeout hq hkeys hfs =>
    rw [List.filterMap_append, hnil hes]
    exact .inr ⟨q.keys, congrArg (q.keys :: ·) (hnil hfs), hkeys⟩

/-- How many steps a burst can still make.  One that is not completed comes only before a wait, and
only if the snapshot has no key. -/
def room (total executed : Nat) (keys : Keys) (awaits : Bool) : Nat :=
  total - executed + if keys.any || awaits then 0 else 1

theorem room_awaits (total executed : Nat) (keys : Keys) :
    room total executed keys true = total - executed := by
  rw [room, Bool.or_true, if_pos rfl, Nat.add_zero]

theorem room_of_any (total executed : Nat) {keys : Keys} (h : keys.any = true) (awaits : Bool) :
    room total executed keys awaits = total - executed := by
  rw [room, h, Bool.true_or, if_pos rfl, Nat.add_zero]

theorem room_of_none (total executed : Nat) {keys : Keys} (h : keys.any = false) :
    room total executed keys false = total - executed + 1 := by
  rw [room, h]
  rfl

/-- A completed instruction takes one step of the room. -/
theorem room_succ {total executed : Nat} (h : executed < total) (keys : Keys) (awaits : Bool) :
    room total (executed + 1) keys awaits + 1 = room total executed keys awaits := by
  rw [room, room]
  omega

theorem sub_le_room (total executed : Nat) (keys : Keys) (awaits : Bool) :
    total - executed ≤ room total executed keys awaits := Nat.le_add_right _ _

theorem room_zero_le (total : Nat) (keys : Keys) (awaits : Bool) :
    room total 0 keys awaits ≤ total + 1 := by
  rw [room]
  split <;> omega

/-- The rest of a burst went from `s` to `t` with the result `r`, and `n` more instructions were
completed.  `awaits` says that it begins with a wait. -/
structure Done (total executed : Nat) (awaits : Bool) (s : Session σ) (r : Except Failure Unit)
    (t : Session σ) (es : List Event) (n : Nat) : Prop where
  passage : Passage s t es n
  course : Course s.scripted es
  straight : s.machine.state.keys.any = true → awaits = false → ∀ e ∈ es, e.isStep = true
  steps : es.countP Event.isStep ≤ room total executed s.machine.state.keys awaits
  within : executed + n ≤ total
  ends : r ≠ .error .unfinished
  completed : r = .ok () → (t.machine.waiting = true ↔ executed + n < total) ∧
    ∀ f, Event.faulted f ∉ es

variable {p : Pace} {total executed n : Nat} {s t u : Session σ} {r : Except Failure Unit}

/-- A step before the rest of a burst. -/
theorem Done.cons {awaits : Bool} {w : UInt16} {es : List Event} {k l : Nat}
    (h : Done total (executed + k) awaits t r u es l) (hp : Passage s t [.executed w] k)
    (hst : Steady s t) (hawaits : s.machine.state.keys.any = true → awaits = false)
    (hroom : room total (executed + k) t.machine.state.keys awaits + 1 ≤
      room total executed s.machine.state.keys false) :
    Done total executed false s r u (.executed w :: es) (k + l) where
  passage := hp.trans h.passage
  course := hst.live ▸ h.course.cons rfl
  straight hs _ :=
    List.forall_mem_cons.mpr ⟨rfl, h.straight (hst.keys.symm ▸ hs) (hawaits hs)⟩
  steps := by
    rw [List.countP_cons_of_pos rfl]
    exact Nat.le_trans (Nat.succ_le_succ h.steps) hroom
  within := Nat.add_assoc executed k l ▸ h.within
  ends := h.ends
  completed hr := by
    obtain ⟨hw, hf⟩ := h.completed hr
    refine ⟨Nat.add_assoc executed k l ▸ hw, fun f hmem => ?_⟩
    cases hmem with
    | tail _ hmem => exact hf f hmem

/-- What comes after the wait of a round, if there is one: a step, and the rounds that are left. -/
def stepAndRounds (p : Pace) (total n executed : Nat) : Act σ := do
  if ← step then
    p.sleepUntil (p.start + Float.ofNat (executed + 1) * p.period)
    rounds p total n (executed + 1)
  else rounds p total n executed

/-- A round waits first if the machine is at a key wait.  If no key comes the burst is over. -/
theorem exec_rounds_succ (hlt : executed < total) (n : Nat) (s : Session σ) :
    exec (rounds p total (n + 1) executed) s =
      if s.machine.waiting then
        exec (awaitKey p >>= fun key => if key then stepAndRounds p total n executed else pure ()) s
      else exec (stepAndRounds p total n executed) s := by
  rw [rounds, if_pos hlt, round, bind_assoc, exec_get_bind]
  cases s.machine.waiting with
  | false =>
    simp only [Bool.false_eq_true, if_false, bind_assoc, stepAndRounds]
    refine congrArg (exec · s) (bind_congr fun b => ?_)
    cases b <;> rfl
  | true =>
    simp only [if_true, bind_assoc, stepAndRounds]
    refine congrArg (exec · s) (bind_congr fun key => ?_)
    cases key with
    | false => rfl
    | true =>
      simp only [Bool.not_true, Bool.false_eq_true, if_false, if_true, bind_assoc]
      refine bind_congr fun b => ?_
      cases b <;> rfl

/-- Whatever session they begin in, `n` rounds are enough for what is left. -/
def Enough (σ : Type) (p : Pace) (total n : Nat) : Prop :=
  ∀ (executed : Nat) (s : Session σ), executed ≤ total →
    (s.machine.waiting = true → executed < total) →
    room total executed s.machine.state.keys s.machine.waiting ≤ n →
    ∃ r t es k, exec (rounds p total n executed) s = (r, t) ∧
      Done total executed s.machine.waiting s r t es k

theorem Enough.step (ih : Enough σ p total n) (s : Session σ) (hlt : executed < total)
    (hroom : room total executed s.machine.state.keys false ≤ n + 1) :
    ∃ r t es k, exec (stepAndRounds p total n executed) s = (r, t) ∧
      Done total executed false s r t es k := by
  rw [stepAndRounds]
  rcases step_cases s with ⟨f, t, hx, hp⟩ | ⟨w, t, hx, hp, hst, hwait, hnone⟩ |
    ⟨w, t, hx, hp, hst, hwait⟩
  · refine ⟨_, t, [.faulted f], 0, exec_bind_error hx _, ?_⟩
    exact {
      passage := hp
      course := .straight (by simp [Event.isStep])
      straight := by simp [Event.isStep]
      steps := by
        have := sub_le_room total executed s.machine.state.keys false
        rw [List.countP_singleton, Event.isStep, if_pos rfl]
        omega
      within := Nat.le_of_lt hlt
      ends := nofun
      completed := nofun }
  · -- no key is down, and the wait that comes next is the only one
    rw [room_of_none total executed hnone] at hroom
    obtain ⟨r, u, es, k, hu, h⟩ := ih executed t (Nat.le_of_lt hlt) (fun _ => hlt) (by
      rw [hwait, room_awaits]
      exact Nat.le_of_succ_le_succ hroom)
    refine ⟨r, u, _, _, (exec_bind_ok hx _).trans hu, h.cons hp hst ?_ ?_⟩
    · rw [hnone]
      nofun
    · rw [hwait, room_awaits, room_of_none total executed hnone]
      exact Nat.le_refl _
  · obtain ⟨v, hs, hp', hst', hm⟩ :=
      sleepUntil_cases p (p.start + Float.ofNat (executed + 1) * p.period) t
    have hwait' : v.machine.waiting = false := hm ▸ hwait
    have hst'' : Steady s v := hst.trans hst'
    have hleft := room_succ hlt s.machine.state.keys false
    obtain ⟨r, u, es, k, hu, h⟩ := ih (executed + 1) v hlt (by simp [hwait']) (by
      rw [hwait', hst''.keys]
      omega)
    refine ⟨r, u, _, _, ((exec_bind_ok hx _).trans (exec_bind_ok hs _)).trans hu,
      h.cons (hp.trans hp') hst'' (fun _ => hwait') ?_⟩
    rw [hwait', hst''.keys]
    exact Nat.le_of_eq hleft

/-- A wait that ended with a key, and then steps until the burst is over. -/
theorem Done.answered {es : List Event} {k : Nat} {q : Keypad} {timeout : Float}
    (h : Done total executed false t r u es k)
    (hp : Passage s t [.awaited timeout, .synced q.keys] 0) (hlive : s.scripted = .ok q)
    (hkeys : q.keys.any = true) (ht : t.machine.state.keys = q.keys) :
    Done total executed true s r u (.awaited timeout :: .synced q.keys :: es) k where
  passage := Nat.zero_add k ▸ hp.trans h.passage
  course := .answered [] nofun timeout hlive hkeys (h.straight (ht ▸ hkeys) rfl)
  straight := nofun
  steps := by
    have hs := h.steps
    rw [room_of_any total executed (ht ▸ hkeys)] at hs
    rw [List.countP_cons_of_neg Bool.false_ne_true, List.countP_cons_of_neg Bool.false_ne_true,
      room_awaits]
    exact hs
  within := h.within
  ends := h.ends
  completed hr := by
    obtain ⟨hw, hf⟩ := h.completed hr
    exact ⟨hw, fun f => by simpa using hf f⟩

/-- A wait without a key is the end of the burst. -/
theorem Done.unanswered {timeout : Float} (hp : Passage s t [.awaited timeout] 0)
    (hlt : executed < total) (hr : r ≠ .error .unfinished)
    (hwait : r = .ok () → t.machine.waiting = true) :
    Done total executed true s r t [.awaited timeout] 0 where
  passage := hp
  course := .unanswered [] nofun timeout
  straight := nofun
  steps := Nat.zero_le _
  within := Nat.le_of_lt hlt
  ends := hr
  completed h := by
    rw [hwait h]
    exact ⟨iff_of_true rfl hlt, by simp⟩

theorem Done.nothing (h : executed = total) (hw : s.machine.waiting = false) :
    Done total executed s.machine.waiting s (.ok ()) s [] 0 where
  passage := .refl s
  course := .straight nofun
  straight := nofun
  steps := Nat.zero_le _
  within := Nat.le_of_eq h
  ends := nofun
  completed _ := by
    rw [hw, h]
    exact ⟨by simp, nofun⟩

theorem Enough.zero : Enough σ p total 0 := by
  intro executed s hle hlt hroom
  have hsub := sub_le_room total executed s.machine.state.keys s.machine.waiting
  have heq : executed = total := by omega
  have hw : s.machine.waiting = false := by
    rw [← Bool.not_eq_true]
    exact fun h => absurd (hlt h) (by omega)
  rw [rounds, if_neg (by omega)]
  exact ⟨_, _, _, _, exec_pure () s, .nothing heq hw⟩

theorem Enough.succ (ih : Enough σ p total n) : Enough σ p total (n + 1) := by
  intro executed s hle hlt hroom
  by_cases h : executed < total
  · rw [exec_rounds_succ h]
    cases hw : s.machine.waiting with
    | false =>
      rw [hw] at hroom
      exact ih.step s h hroom
    | true =>
      rw [hw, room_awaits] at hroom
      rw [if_pos rfl]
      obtain ⟨timeout, ⟨e, t, hx, hp⟩ | ⟨t, hx, hp, hwt⟩ | ⟨q, t, hx, hlive, hkeys, hp, ht⟩⟩ :=
        awaitKey_cases p s
      · exact ⟨_, t, _, 0, exec_bind_error hx _, .unanswered hp h nofun nofun⟩
      · exact ⟨_, t, _, 0, exec_bind_ok hx _, .unanswered hp h nofun fun _ => hwt.trans hw⟩
      · -- from here on the snapshot has a key, and no step can begin a wait
        obtain ⟨r, u, es, k, hu, hd⟩ := ih.step t h (by
          rw [room_of_any total executed (ht ▸ hkeys)]
          exact hroom)
        exact ⟨r, u, _, k, (exec_bind_ok hx _).trans hu, hd.answered hp hlive hkeys ht⟩
  · have hw : s.machine.waiting = false := by
      rw [← Bool.not_eq_true]
      exact fun hw => h (hlt hw)
    rw [rounds, if_neg h]
    exact ⟨_, _, _, _, exec_pure () s, .nothing (Nat.le_antisymm hle (Nat.le_of_not_lt h)) hw⟩

theorem enough (p : Pace) (total : Nat) : ∀ n, Enough σ p total n
  | 0 => .zero
  | n + 1 => (enough p total n).succ

theorem rounds_end (p : Pace) {total n : Nat} (htotal : 0 < total) (hn : total + 1 ≤ n)
    (s : Session σ) : ∃ r t es k, exec (rounds p total n 0) s = (r, t) ∧
      Done total 0 s.machine.waiting s r t es k :=
  enough p total n 0 s (Nat.zero_le _) (fun _ => htotal)
    (Nat.le_trans (room_zero_le total _ _) hn)

/-- **Bursts end.**  One round more than a burst has instructions is enough, and so is any number of
rounds beyond that. -/
theorem burst_eq_rounds (p : Pace) {total n : Nat} (htotal : 0 < total) (hn : total + 1 ≤ n) :
    (burst p total : Act σ) = rounds p total n 0 := by
  refine exec_ext fun s => ?_
  obtain ⟨r, t, es, k, hx, hd⟩ := rounds_end p htotal hn s
  refine exec_burstFrom p total ?_
  rw [hx]
  exact hd.ends

/-- **What a burst does.** -/
theorem burst_done (p : Pace) {total : Nat} (htotal : 0 < total) (s : Session σ) :
    ∃ r t es k, exec (burst p total) s = (r, t) ∧
      Done total 0 s.machine.waiting s r t es k := by
  rw [burst_eq_rounds p htotal (Nat.le_refl _)]
  exact rounds_end p htotal (Nat.le_refl _) s

/-! ### A frame that can be run -/

/-- The pace of rates that have times. -/
def Pace.of (r : Rates) (paced : Bool) (start : Float) : Pace where
  paced
  start
  deadline := start + 1.0 / Float.ofNat r.fps
  period := 1.0 / Float.ofNat r.fps / Float.ofNat r.instructionsPerFrame

theorem Pace.ofRates_eq {r : Rates} (h : r.frequency < Number.doubleLimit) (paced : Bool)
    (start : Float) : Pace.ofRates r paced start = .ok (.of r paced start) := by
  have hdouble {n : Nat} (hn : n ≤ r.frequency) : Number.double n = .ok (Float.ofNat n) :=
    if_pos (Nat.lt_of_le_of_lt hn h)
  have hframe : r.frameDuration = .ok (1.0 / Float.ofNat r.fps) := by
    rw [Rates.frameDuration, hdouble r.fps_le_frequency]
    rfl
  have htotal : r.instructionsPerFrame ≤ r.frequency := Nat.div_le_self _ _
  rw [Pace.ofRates, Rates.period, hframe, hdouble htotal]
  rfl

/-- A frame is one with rounds in place of the loop. -/
theorem exec_frame {s : Session σ} (h : s.machine.rates.frequency < Number.doubleLimit)
    (devices : Peripherals σ) (run : Act σ) (paced : Bool) :
    exec (frame devices run paced) s = exec (do
      let pace := .of s.machine.rates paced s.clock
      let total := s.machine.rates.instructionsPerFrame
      call run .polled devices.poll
      syncKeypad
      rounds pace total (total + 1) 0
      pace.sleepUntil pace.deadline
      endFrame devices run) s := by
  dsimp only
  rw [frame, exec_get_bind, Pace.ofRates_eq h,
    ← burst_eq_rounds _ s.machine.rates.instructionsPerFrame_pos (Nat.le_refl _)]
  rfl

end Chip8.Session
