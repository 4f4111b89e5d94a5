import Chip8.Proofs.Session.Operations
import Chip8.Proofs.Stream
import Mathlib.Data.List.Induction
import Mathlib.Data.List.TakeWhile

/-!
# Which random keys are used twice

The machine has a random key from which the resets take theirs, and the state has one from which the
draws take theirs.  In the beginning the two are the same.

* `RandomKey.place k p`   the key at a place of the tree of all that splitting makes of `k`;
* `Keyring`, `follow`     the two keys and the subkeys that were drawn from, after some events.  It is
                          the same for keys and for their places, since all it does is to split;
* `ring_kept`             at any moment of a history the ring of its events has the machine's keys;
* `handed_mem_iff`        when the place of the next reset's key is one that was drawn from;
* `reset_key_reused_iff`  the same for the keys;
* `reset_reuses_subkey`   it happens.
-/

namespace Chip8

/-! ### Places -/

/-- The halves of a split. -/
inductive Half where
  | onward
  | used
  deriving DecidableEq, Repr

namespace RandomKey

def half (k : RandomKey) : Half → RandomKey
  | .onward => k.split.1
  | .used => k.split.2

def place (k : RandomKey) (p : List Half) : RandomKey := p.foldl half k

theorem place_append (k : RandomKey) (p q : List Half) : k.place (p ++ q) = (k.place p).place q :=
  List.foldl_append

theorem place_stream (k : RandomKey) (n : Nat) : k.place (List.replicate n .onward) = k.stream n := by
  induction n with
  | zero => rfl
  | succ n ih => rw [List.replicate_succ', place_append, ih]; rfl

theorem place_subkey (k : RandomKey) (n : Nat) :
    k.place (List.replicate n .onward ++ [.used]) = k.subkey n := by
  rw [place_append, place_stream]
  rfl

end RandomKey

/-! ### Rings of keys -/

namespace Event

/-- A random instruction was executed. -/
def isDraw : Event → Bool
  | executed w => (Word.draw? w).isSome
  | _ => false

def isReset : Event → Bool
  | wasReset => true
  | _ => false

end Event

structure Keyring (κ : Type) where
  /-- The machine's own key. -/
  own : κ
  /-- The key of the state. -/
  current : κ
  /-- The subkeys from which bytes were drawn. -/
  consumed : List κ

namespace Keyring

variable {κ κ' : Type}

def single (k : κ) : Keyring κ := ⟨k, k, []⟩

def draw (split : κ → κ × κ) (r : Keyring κ) : Keyring κ :=
  { r with current := (split r.current).1, consumed := r.consumed ++ [(split r.current).2] }

def reset (split : κ → κ × κ) (r : Keyring κ) : Keyring κ :=
  { r with own := (split r.own).1, current := (split r.own).2 }

def follow (split : κ → κ × κ) (r : Keyring κ) (e : Event) : Keyring κ :=
  if e.isDraw then r.draw split else if e.isReset then r.reset split else r

/-- The ring after some events. -/
def after (split : κ → κ × κ) (r : Keyring κ) (es : List Event) : Keyring κ :=
  es.foldl (follow split) r

def map (f : κ → κ') (r : Keyring κ) : Keyring κ' := ⟨f r.own, f r.current, r.consumed.map f⟩

variable {split : κ → κ × κ} {split' : κ' → κ' × κ'} {r : Keyring κ} {e : Event}

theorem after_nil (r : Keyring κ) : r.after split [] = r := rfl
theorem after_append (r : Keyring κ) (es fs : List Event) :
    r.after split (es ++ fs) = (r.after split es).after split fs := List.foldl_append

theorem after_cons (r : Keyring κ) (e : Event) (es : List Event) :
    r.after split (e :: es) = (r.follow split e).after split es := rfl

/-- An event that is neither a draw nor a reset. -/
theorem follow_of_aside (hd : e.isDraw = false) (hr : e.isReset = false) : r.follow split e = r := by
  rw [follow, if_neg (by simp [hd]), if_neg (by simp [hr])]

theorem after_of_aside {es : List Event} (h : ∀ e ∈ es, e.isDraw = false ∧ e.isReset = false) :
    r.after split es = r := by
  induction es with
  | nil => rfl
  | cons e es ih =>
    obtain ⟨hd, hr⟩ := h e List.mem_cons_self
    rw [after_cons, follow_of_aside hd hr]
    exact ih fun e' he => h e' (List.mem_cons_of_mem e he)

theorem follow_reset : r.follow split .wasReset = r.reset split := rfl

/-- A map that respects the splits takes rings to rings. -/
theorem follow_map {f : κ → κ'} (hf : ∀ k, split' (f k) = Prod.map f f (split k)) (r : Keyring κ)
    (e : Event) : (r.follow split e).map f = (r.map f).follow split' e := by
  unfold follow
  split
  · simp [map, draw, hf]
  · split
    · simp [map, reset, hf]
    · rfl

theorem after_map {f : κ → κ'} (hf : ∀ k, split' (f k) = Prod.map f f (split k)) (r : Keyring κ)
    (es : List Event) : (r.after split es).map f = (r.map f).after split' es := by
  induction es generalizing r with
  | nil => rfl
  | cons e es ih => rw [after_cons, after_cons, ih, follow_map hf]

/-! ### Places of the keys of a ring -/

/-- Every place has two places under it. -/
def fork (p : List Half) : List Half × List Half := (p ++ [.onward], p ++ [.used])

theorem split_place (k : RandomKey) (p : List Half) :
    (k.place p).split = Prod.map k.place k.place (fork p) := by
  show _ = (k.place (p ++ [.onward]), k.place (p ++ [.used]))
  rw [RandomKey.place_append, RandomKey.place_append]
  rfl

/-- The places of the keys after some events, seen from the first key. -/
def places (es : List Event) : Keyring (List Half) := (single []).after fork es

theorem places_map (k : RandomKey) (es : List Event) :
    (places es).map k.place = (single k).after RandomKey.split es :=
  after_map (split_place k) _ es

/-- The place of the key that a reset hands out after `n` others. -/
def handed (n : Nat) : List Half := List.replicate n .onward ++ [.used]

/-- How many bytes were drawn before the first reset. -/
def firstDraws (es : List Event) : Nat := (es.takeWhile (!·.isReset)).countP Event.isDraw

theorem after_own (r : Keyring (List Half)) (es : List Event) : (r.after fork es).own =
    r.own ++ List.replicate (es.countP Event.isReset) .onward := by
  induction es generalizing r with
  | nil => simp [after_nil]
  | cons e es ih =>
    rw [after_cons, ih, List.countP_cons]
    cases e with
    | wasReset =>
      show r.own ++ [.onward] ++ _ = r.own ++ List.replicate (_ + 1) .onward
      rw [List.append_assoc, List.singleton_append, List.replicate_succ]
    | executed w =>
      unfold follow
      split <;> rfl
    | _ => rfl

/-- Draws before the first reset. -/
theorem places_of_no_reset {es : List Event} (h : ∀ e ∈ es, e.isReset = false) :
    places es = ⟨[], List.replicate (es.countP Event.isDraw) .onward,
      (List.range (es.countP Event.isDraw)).map handed⟩ := by
  induction es using List.reverseRecOn with
  | nil => rfl
  | append_singleton es e ih =>
    have ih := ih fun e' he => h e' (List.mem_append_left _ he)
    have he : e.isReset = false := h e (List.mem_append_right _ List.mem_cons_self)
    rw [places, after_append, ← places, ih, after_cons, after_nil, List.countP_append]
    cases hd : e.isDraw with
    | false =>
      rw [follow_of_aside hd he, List.countP_singleton, hd]
      rfl
    | true =>
      rw [follow, if_pos hd, List.countP_singleton, hd, if_pos rfl, List.range_succ,
        List.replicate_succ', List.map_append]
      rfl

/-- After a reset a draw is at a place under the key of a reset, and that is under two halves that
are used. -/
theorem after_later {r : Keyring (List Half)} (h : .used ∈ r.current) (es : List Event) :
    ∀ p, p ∈ (r.after fork es).consumed → p ∈ r.consumed ∨ 2 ≤ p.count .used := by
  induction es generalizing r with
  | nil => exact fun p hp => .inl hp
  | cons e es ih =>
    intro p hp
    rw [after_cons] at hp
    unfold follow at hp
    split at hp
    · have hcurrent : .used ∈ (r.draw fork).current := List.mem_append_left _ h
      obtain hp | hp := ih hcurrent p hp
      · obtain hp | hp := List.mem_append.mp hp
        · exact .inl hp
        · right
          rw [List.mem_singleton.mp hp, fork, List.count_append]
          have := List.count_pos_iff.mpr h
          have : [Half.used].count .used = 1 := rfl
          omega
      · exact .inr hp
    · split at hp
      · exact ih (r := r.reset fork) (List.mem_append_right _ List.mem_cons_self) p hp
      · exact ih h p hp

theorem mem_after {r : Keyring κ} {p : κ} (h : p ∈ r.consumed) (es : List Event) :
    p ∈ (r.after split es).consumed := by
  induction es generalizing r with
  | nil => exact h
  | cons e es ih =>
    rw [after_cons]
    refine ih ?_
    unfold follow
    split
    · exact List.mem_append_left _ h
    · split <;> exact h

theorem handed_mem_first {n d : Nat} : handed n ∈ (List.range d).map handed ↔ n < d := by
  rw [List.mem_map]
  constructor
  · rintro ⟨i, hi, heq⟩
    have hlen := congrArg List.length heq
    rw [handed, handed, List.length_append, List.length_append, List.length_replicate,
      List.length_replicate] at hlen
    have := List.mem_range.mp hi
    omega
  · exact fun h => ⟨n, List.mem_range.mpr h, rfl⟩

/-- A place that a reset hands out was drawn from exactly if the draw of that number was made before
the first reset. -/
theorem handed_mem_iff (n : Nat) (es : List Event) :
    handed n ∈ (places es).consumed ↔ n < firstDraws es := by
  have hpre : ∀ e ∈ es.takeWhile (!·.isReset), e.isReset = false := by
    intro e he
    simpa using List.mem_takeWhile_imp he
  have hfirst : handed n ∈ (places (es.takeWhile (!·.isReset))).consumed ↔ n < firstDraws es := by
    rw [places_of_no_reset hpre]
    exact handed_mem_first
  rw [← hfirst]
  conv_lhs => rw [← List.takeWhile_append_dropWhile (p := (!Event.isReset ·)) (l := es)]
  rw [places, after_append, ← places]
  refine ⟨fun h => ?_, fun h => mem_after h _⟩
  cases hrest : es.dropWhile (!·.isReset) with
  | nil =>
    rw [hrest] at h
    exact h
  | cons e fs =>
    have he : e.isReset = true := by
      have := List.head_dropWhile_not (!Event.isReset ·) (l := es) (by rw [hrest]; nofun)
      simpa [hrest] using this
    have hcount : (handed n).count .used = 1 := by simp [handed, List.count_replicate]
    rw [hrest, after_cons] at h
    cases e with
    | wasReset =>
      rw [follow_reset] at h
      obtain h | h := after_later (List.mem_append_right _ List.mem_cons_self) fs _ h
      · exact h
      · omega
    | _ => cases he

end Keyring

/-! ### The keys of a machine -/

theorem Machine.keys_of_reset {m m' : Machine} (h : m.reset = .ok m') :
    m'.rng = m.rng.split.1 ∧ m'.state.rng = m.rng.split.2 := by
  rw [reset_eq_ok h]
  exact ⟨rfl, rfl⟩

theorem Machine.keys_of_load {m m' : Machine} {program : List UInt8} (h : m.load program = .ok m') :
    m'.rng = m.rng ∧ m'.state.rng = m.state.rng := by
  obtain ⟨-, rfl⟩ := load_eq_ok h
  exact ⟨rfl, rfl⟩

namespace Session

variable {σ : Type} {devices : Peripherals σ} {asks : Request → Prop} {s t : Session σ}
  {r : Except Failure Unit} {k : RandomKey} {es : List Event}

/-- The keys after all that has happened, if `k` was the first one. -/
def ring (k : RandomKey) (s : Session σ) : Keyring RandomKey :=
  (Keyring.single k).after RandomKey.split s.trace.toList

theorem ring_append (h : t.trace = s.trace ++ es.toArray) (k : RandomKey) :
    t.ring k = (s.ring k).after RandomKey.split es := by
  rw [ring, h, Array.toList_append, Keyring.after_append]
  rfl

/-- The machine has the keys of its ring. -/
def Kept (k : RandomKey) (s : Session σ) : Prop :=
  s.machine.rng = (s.ring k).own ∧ s.machine.state.rng = (s.ring k).current

/-- Something besides draws and resets, and the keys stay. -/
theorem Kept.aside (h : s.Kept k) (es : List Event) (htrace : t.trace = s.trace ++ es.toArray)
    (hes : ∀ e ∈ es, e.isDraw = false ∧ e.isReset = false) (hown : t.machine.rng = s.machine.rng)
    (hstate : t.machine.state.rng = s.machine.state.rng) : t.Kept k := by
  have hring : t.ring k = s.ring k := by rw [ring_append htrace, Keyring.after_of_aside hes]
  unfold Kept
  rw [hring, hown, hstate]
  exact h

theorem Kept.same (h : s.Kept k) (htrace : t.trace = s.trace)
    (hown : t.machine.rng = s.machine.rng) (hstate : t.machine.state.rng = s.machine.state.rng) :
    t.Kept k :=
  h.aside [] (by rw [htrace]; exact Array.append_empty.symm) nofun hown hstate

theorem Kept.step (h : s.Kept k) {a : State} {w : UInt16}
    (hs : s.machine.state.step = .ok (a, w)) :
    Kept k { s.log [.executed w] with machine := s.machine.stepped a w } := by
  have hring := ring_append (t := s.log [.executed w]) rfl k
  rw [Keyring.after_cons, Keyring.after_nil, Keyring.follow] at hring
  show s.machine.rng = ((s.log [.executed w]).ring k).own ∧
    a.rng = ((s.log [.executed w]).ring k).current
  obtain ⟨hd, hrng⟩ | ⟨x, mask, hd, hrng, -⟩ := State.rng_of_step hs
  · rw [hring, if_neg (by simp [Event.isDraw, hd]), hrng]
    exact h
  · rw [hring, if_pos (by simp [Event.isDraw, hd]), hrng, h.2]
    exact ⟨h.1, rfl⟩

theorem Kept.reset (h : s.Kept k) {m : Machine} (hm : s.machine.reset = .ok m) :
    Kept k ({ s with machine := m }.log [.wasReset]) := by
  obtain ⟨hown, hstate⟩ := Machine.keys_of_reset hm
  have hring := ring_append (t := s.log [.wasReset]) rfl k
  rw [Keyring.after_cons, Keyring.after_nil, Keyring.follow_reset] at hring
  show m.rng = ((s.log [.wasReset]).ring k).own ∧
    m.state.rng = ((s.log [.wasReset]).ring k).current
  rw [hring, hown, hstate, h.1]
  exact ⟨rfl, rfl⟩

theorem Move.kept (h : Move devices asks s t) (hs : s.Kept k) : t.Kept k := by
  cases h with
  | aside es he htrace hmachine hdevices hscript =>
    refine hs.aside _ htrace ?_ (by rw [hmachine]) (by rw [hmachine])
    intro e hmem
    have haside := he e hmem
    cases e with
    | executed _ | wasReset => cases haside
    | _ => exact ⟨rfl, rfl⟩
  | @call e _ h =>
    refine hs.aside [e] rfl (fun e' he' => ?_) rfl rfl
    rw [List.mem_singleton.mp he']
    cases e with
    | executed _ | wasReset => cases h
    | _ => exact ⟨rfl, rfl⟩
  | step h => exact hs.step h
  | reset h hrun hm => exact hs.reset hm
  | sync => exact hs.aside [.synced _] rfl (by simp [Event.isDraw, Event.isReset]) rfl rfl
  | tick => exact hs.aside [.ticked] rfl (by simp [Event.isDraw, Event.isReset]) rfl rfl
  | stop => exact hs.aside [.stopped] rfl (by simp [Event.isDraw, Event.isReset]) rfl rfl
  | keypad | count => exact hs.same rfl rfl rfl
  | enter =>
    obtain ⟨lines, htrace⟩ := s.entered_trace
    exact hs.aside _ htrace (by simp [Event.isDraw, Event.isReset]) rfl rfl
  | leave =>
    obtain ⟨lines, htrace⟩ := s.left_trace
    exact hs.aside _ htrace (by simp [Event.isDraw, Event.isReset]) rfl rfl

theorem Goes.kept (h : Goes devices asks s r t) (hs : s.Kept k) : t.Kept k := by
  induction h with
  | done | raise _ => exact hs
  | move hm _ ih => exact ih (hm.kept hs)
  | fault _ lines =>
    exact hs.aside (.faulted _ :: lines.map .printed) rfl
      (by simp [Event.isDraw, Event.isReset]) rfl rfl
  | script => exact hs.same rfl rfl rfl
  | @leave h s t e _ ih =>
    obtain ⟨lines, htrace⟩ := t.left_trace
    exact (ih hs).aside _ htrace (by simp [Event.isDraw, Event.isReset]) rfl rfl

/-- Loading touches neither of the keys. -/
theorem kept_after (hs : s.Kept k) (ops : List (Operation σ)) : (s.after ops).Kept k := by
  induction ops generalizing s with
  | nil => exact hs
  | cons o ops ih =>
    rw [after_cons]
    refine ih ?_
    show (exec o.act s).2.Kept k
    cases ho : o.program? with
    | none =>
      obtain ⟨devices, r, h⟩ | ⟨p, hp, htrace⟩ := exec_act_goes ho s
      · exact h.kept hs
      · exact hs.same htrace (by rw [hp]) (by rw [hp])
    | some program =>
      obtain ⟨lines, htrace⟩ := exec_act_load_trace ho s
      have hmachine := exec_act_load ho s
      have hes : ∀ e ∈ lines.map Event.printed, e.isDraw = false ∧ e.isReset = false := by
        simp [Event.isDraw, Event.isReset]
      cases hm : s.machine.load program with
      | error c =>
        rw [hm] at hmachine
        exact hs.aside _ htrace hes (by rw [hmachine]) (by rw [hmachine])
      | ok m =>
        rw [hm] at hmachine
        obtain ⟨hown, hstate⟩ := Machine.keys_of_load hm
        exact hs.aside _ htrace hes (by rw [hmachine, hown]) (by rw [hmachine, hstate])

/-- At any moment of the life of a machine, the ring of its session has its keys. -/
theorem ring_kept {settings : Settings} (hs : Machine.create settings k = .ok s.machine)
    (htrace : s.trace = #[]) (ops : List (Operation σ))
    (h : Goes devices anything (s.after ops) r t) : t.Kept k := by
  have hkept : s.Kept k := by
    obtain ⟨rates, -, hm⟩ := Machine.create_eq_ok hs
    have hring : s.ring k = .single k := by rw [ring, htrace]; rfl
    unfold Kept
    rw [hring, hm]
    exact ⟨rfl, rfl⟩
  exact h.kept (kept_after hkept ops)

/-- **When a reset hands out a key that was drawn from**: exactly if the machine has made more draws before its
first reset than it has had resets, or else the generator makes the same key at two places of its tree. -/
theorem reset_key_reused_iff {settings : Settings}
    (hs : Machine.create settings k = .ok s.machine) (htrace : s.trace = #[])
    (ops : List (Operation σ)) (h : Goes devices anything (s.after ops) r t) {m : Machine}
    (hm : t.machine.reset = .ok m) :
    let es := t.trace.toList
    let n := es.countP Event.isReset
    t.Kept k ∧ m.state.rng = k.subkey n ∧
    (m.state.rng ∈ (t.ring k).consumed ↔ n < Keyring.firstDraws es ∨
      ∃ p ∈ (Keyring.places es).consumed, p ≠ Keyring.handed n ∧ k.place p = k.subkey n) := by
  intro es n
  have hkept := ring_kept hs htrace ops h
  have hplaces : (Keyring.places es).map k.place = t.ring k := Keyring.places_map k es
  have hown : t.machine.rng = k.stream n := by
    rw [hkept.1, ← hplaces]
    show k.place (Keyring.places es).own = _
    rw [Keyring.places, Keyring.after_own]
    exact RandomKey.place_stream k n
  have hkey : m.state.rng = k.subkey n := by rw [(Machine.keys_of_reset hm).2, hown, RandomKey.subkey]
  have hplace : k.place (Keyring.handed n) = k.subkey n := RandomKey.place_subkey k n
  refine ⟨hkept, hkey, ?_⟩
  rw [hkey, ← hplaces, ← Keyring.handed_mem_iff]
  show k.subkey n ∈ (Keyring.places es).consumed.map k.place ↔ _
  rw [List.mem_map]
  constructor
  · rintro ⟨p, hp, heq⟩
    by_cases hhanded : p = Keyring.handed n
    · exact .inl (hhanded ▸ hp)
    · exact .inr ⟨p, hp, hhanded, heq⟩
  · rintro (hmem | ⟨p, hp, -, heq⟩)
    · exact ⟨_, hmem, hplace⟩
    · exact ⟨p, hp, heq⟩

/-- A machine with nothing loaded. -/
def idling : Session Unit where
  machine := { rng := ⟨0, 0⟩, state := .initial ⟨0, 0⟩ false }
  logger := { name := "" }
  devices := ()

/-- Two draws, and then two resets: the second one hands out the subkey of the second draw. -/
theorem reset_key_reused_second :
    let t := idling.after [.load [0xC0, 0xFF, 0xC1, 0xFF], .step, .step, .reset]
    Machine.create {} ⟨0, 0⟩ = .ok idling.machine ∧
    ∃ m, t.machine.reset = .ok m ∧ m.state.rng ∈ (t.ring ⟨0, 0⟩).consumed := by
  intro t
  have hcreate : Machine.create {} ⟨0, 0⟩ = .ok idling.machine := rfl
  have hreset : t.machine.reset.isOk = true := by decide +kernel
  cases hm : t.machine.reset with
  | error c =>
    rw [hm] at hreset
    cases hreset
  | ok m =>
    have hdone : Goes .none anything t (.ok ()) t := .done t
    obtain ⟨-, -, hiff⟩ := reset_key_reused_iff hcreate rfl _ hdone hm
    exact ⟨hcreate, m, rfl, hiff.mpr (.inl (by decide +kernel))⟩

/-- The key that the first reset hands out is the one from which the byte in `V0` was drawn. -/
theorem reset_reuses_subkey :
    let t := idling.after [.load [0xC0, 0xFF], .step]
    let u := t.after [.reset]
    u.trace.toList.countP Event.isReset = 1 ∧
      u.machine.state.rng ∈ (t.ring ⟨0, 0⟩).consumed ∧
      t.machine.state.v.get 0 = u.machine.state.rng.byte := by
  decide +kernel

end Session

end Chip8
