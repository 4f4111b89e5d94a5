import Chip8.Proofs.Session.Devices
import Chip8.Window
import Mathlib.Data.List.Induction

/-!
# Host keys and the keys of the keypad

Several keys of the host may stand for one key of the keypad, and the window passes on each press and
each release as it comes.

* `latest f es`        what the last event says that says something, for a reading `f` of events;
* `Held es key`        the host key is down after the events `es`;
* `Released es k`      the last event about a host key of `k` is a release;
* `Window.quiet_devices`   a window leaves runs and resets alone;
* `Window.polls`       the live keypad after batches of events were polled;
* `polls_eq`           a key of the keypad is what the last event about one of its host keys made it;
* `pad_key_down_iff`   so it is down if one of them is held, unless another one was released last;
* `pad_key_up_while_held`   that may happen;
* `pad_key_down_iff_held`   but not to one who holds only one of them at a time.
-/

namespace Chip8

theorem Keys.get_set (keys : Keys) (i k : Fin 16) (down : Bool) :
    (keys.set i down).get k = if i = k then down else keys.get k := by
  show (Vector.set keys i.val down _)[k.val] = _
  rw [Vector.getElem_set]
  simp only [Fin.ext_iff]
  rfl

/-! ### Events about a key -/

namespace HostEvent

/-- What the event says about a host key. -/
def about? (key : String) : HostEvent → Option Bool
  | keyDown name => if name = key then some true else none
  | keyUp name => if name = key then some false else none
  | _ => none

/-- What the event says about the host keys of a key of the keypad. -/
def touch? (k : Fin 16) : HostEvent → Option Bool
  | keyDown key => if keyMap.lookup key = some k then some true else none
  | keyUp key => if keyMap.lookup key = some k then some false else none
  | _ => none

theorem about?_of_touch? {k : Fin 16} {key : String} (hkey : keyMap.lookup key = some k)
    {e : HostEvent} (h : e.touch? k = none) : e.about? key = none := by
  cases e with
  | keyDown name | keyUp name =>
    by_cases heq : name = key
    · rw [heq, touch?, if_pos hkey] at h
      cases h
    · exact if_neg heq
  | quit | other => rfl

theorem touch?_eq_true {k : Fin 16} {e : HostEvent} (h : e.touch? k = some true) :
    ∃ key, e = keyDown key ∧ keyMap.lookup key = some k := by
  cases e with
  | keyDown key =>
    by_cases hkey : keyMap.lookup key = some k
    · exact ⟨key, rfl, hkey⟩
    · rw [touch?, if_neg hkey] at h
      cases h
  | keyUp key => simp [touch?] at h
  | quit | other => cases h

theorem touch?_eq_false {k : Fin 16} {e : HostEvent} (h : e.touch? k = some false) :
    ∃ key, e = keyUp key ∧ keyMap.lookup key = some k := by
  cases e with
  | keyUp key =>
    by_cases hkey : keyMap.lookup key = some k
    · exact ⟨key, rfl, hkey⟩
    · rw [touch?, if_neg hkey] at h
      cases h
  | keyDown key => simp [touch?] at h
  | quit | other => cases h

end HostEvent

/-- What the last of the events says that says something; in the beginning every key is up. -/
def latest (f : HostEvent → Option Bool) (es : List HostEvent) : Bool :=
  es.foldl (fun down e => (f e).getD down) false

section
variable {f : HostEvent → Option Bool}

theorem latest_append_singleton (es : List HostEvent) (e : HostEvent) :
    latest f (es ++ [e]) = (f e).getD (latest f es) := by
  rw [latest, List.foldl_append]
  rfl

theorem latest_append {es fs : List HostEvent} (h : ∀ e ∈ fs, f e = none) :
    latest f (es ++ fs) = latest f es := by
  induction fs using List.reverseRecOn with
  | nil => rw [List.append_nil]
  | append_singleton fs e ih =>
    have he : f e = none := h e (List.mem_append_right _ List.mem_cons_self)
    rw [← List.append_assoc, latest_append_singleton, he]
    exact ih fun e' he' => h e' (List.mem_append_left _ he')

theorem latest_append_cons {es fs : List HostEvent} {e : HostEvent} {down : Bool}
    (he : f e = some down) (h : ∀ e' ∈ fs, f e' = none) : latest f (es ++ e :: fs) = down := by
  rw [← List.singleton_append, ← List.append_assoc, latest_append h, latest_append_singleton, he]
  rfl

end

/-- The host key is down after the events. -/
def Held (es : List HostEvent) (key : String) : Prop := latest (HostEvent.about? key) es = true

instance (es : List HostEvent) (key : String) : Decidable (Held es key) :=
  inferInstanceAs (Decidable (_ = true))

/-- Of all the events about host keys of `k`, the last one is a release. -/
def Released (es : List HostEvent) (k : Fin 16) : Prop :=
  ∃ pre key post, es = pre ++ .keyUp key :: post ∧ keyMap.lookup key = some k ∧
    ∀ e ∈ post, e.touch? k = none

section
variable {es : List HostEvent} {k : Fin 16}

/-- A press that came last leaves its host key held. -/
theorem held_of_latest (h : latest (HostEvent.touch? k) es = true) :
    ∃ key, keyMap.lookup key = some k ∧ Held es key := by
  induction es using List.reverseRecOn with
  | nil => cases h
  | append_singleton es e ih =>
    rw [latest_append_singleton] at h
    cases ht : e.touch? k with
    | none =>
      rw [ht] at h
      obtain ⟨key, hkey, hheld⟩ := ih h
      refine ⟨key, hkey, ?_⟩
      show latest _ (es ++ [e]) = true
      rw [latest_append_singleton, HostEvent.about?_of_touch? hkey ht]
      exact hheld
    | some down =>
      rw [ht] at h
      have hdown : down = true := h
      obtain ⟨key, rfl, hkey⟩ := HostEvent.touch?_eq_true (hdown ▸ ht)
      refine ⟨key, hkey, ?_⟩
      show latest _ (es ++ [_]) = true
      rw [latest_append_singleton]
      exact congrArg (fun o : Option Bool => o.getD _) (if_pos rfl)

/-- If no press came last, a release did, or no host key was touched. -/
theorem released_of_latest (h : latest (HostEvent.touch? k) es = false) :
    Released es k ∨ ∀ key, keyMap.lookup key = some k → ¬ Held es key := by
  induction es using List.reverseRecOn with
  | nil => exact .inr fun key _ hheld => by cases hheld
  | append_singleton es e ih =>
    rw [latest_append_singleton] at h
    cases ht : e.touch? k with
    | none =>
      rw [ht] at h
      obtain ⟨pre, key, post, rfl, hkey, hpost⟩ | hnone := ih h
      · refine .inl ⟨pre, key, post ++ [e], by simp, hkey, ?_⟩
        intro e' he'
        obtain he' | he' := List.mem_append.mp he'
        · exact hpost e' he'
        · rw [List.mem_singleton.mp he']
          exact ht
      · refine .inr fun key hkey hheld => hnone key hkey ?_
        have hheld : latest _ (es ++ [e]) = true := hheld
        rw [latest_append_singleton, HostEvent.about?_of_touch? hkey ht] at hheld
        exact hheld
    | some down =>
      rw [ht] at h
      have hdown : down = false := h
      obtain ⟨key, rfl, hkey⟩ := HostEvent.touch?_eq_false (hdown ▸ ht)
      exact .inl ⟨es, key, [], rfl, hkey, nofun⟩

theorem latest_of_released (h : Released es k) : latest (HostEvent.touch? k) es = false := by
  obtain ⟨pre, key, post, rfl, hkey, hpost⟩ := h
  exact latest_append_cons (if_pos hkey) hpost

theorem latest_touch_iff : latest (HostEvent.touch? k) es = true ↔
    (∃ key, keyMap.lookup key = some k ∧ Held es key) ∧ ¬ Released es k := by
  constructor
  · intro h
    refine ⟨held_of_latest h, fun hr => ?_⟩
    rw [latest_of_released hr] at h
    cases h
  · rintro ⟨⟨key, hkey, hheld⟩, hr⟩
    by_contra hfalse
    obtain h | h := released_of_latest (Bool.not_eq_true _ ▸ hfalse)
    · exact hr h
    · exact h key hkey hheld

/-- A release that came last was made while another host key was held, if one is held now. -/
theorem two_held_of_released (hup : ∀ pre key post, es = pre ++ .keyUp key :: post → Held pre key)
    {key : String} (hkey : keyMap.lookup key = some k) (hheld : Held es key) (hr : Released es k) :
    ∃ pre other, pre <+: es ∧ keyMap.lookup other = some k ∧ other ≠ key ∧ Held pre other ∧
      Held pre key := by
  obtain ⟨pre, other, post, rfl, hother, hpost⟩ := hr
  have hquiet (name : String) (hname : keyMap.lookup name = some k) :
      ∀ e ∈ post, e.about? name = none := fun e he => HostEvent.about?_of_touch? hname (hpost e he)
  have hne : other ≠ key := by
    intro heq
    subst heq
    have hlast : HostEvent.about? other (.keyUp other) = some false := if_pos rfl
    have hfalse : latest _ (pre ++ .keyUp other :: post) = false :=
      latest_append_cons hlast (hquiet other hother)
    exact absurd (hfalse.symm.trans hheld) Bool.false_ne_true
  refine ⟨pre, other, List.prefix_append _ _, hother, hne, hup pre other post rfl, ?_⟩
  have hrest : ∀ e ∈ HostEvent.keyUp other :: post, e.about? key = none := by
    intro e he
    obtain rfl | he := List.mem_cons.mp he
    · exact if_neg hne
    · exact hquiet key hkey e he
  have hsame : latest (HostEvent.about? key) (pre ++ .keyUp other :: post) = latest _ pre :=
    latest_append hrest
  exact hsame.symm.trans hheld

end

/-! ### The live keypad -/

namespace Window

variable {w : Window} {p : Keypad}

/-- The window asks for a stop and for keys, and for nothing else. -/
theorem request_cases {e : HostEvent} {q : Request} (h : w.request e = some q) :
    q = .stop ∨ q.isKeypad = true := by
  have hquit : w.quit = some q → q = .stop := by
    intro h
    rw [quit] at h
    split at h
    · exact (Option.some.inj h).symm
    · cases h
  cases e with
  | keyDown key =>
    rw [request] at h
    split at h
    · exact .inl (hquit h)
    · obtain ⟨k, -, rfl⟩ := Option.map_eq_some_iff.mp h
      exact .inr rfl
  | keyUp key =>
    obtain ⟨k, -, rfl⟩ := Option.map_eq_some_iff.mp h
    exact .inr rfl
  | quit => exact .inl (hquit h)
  | other => cases h

/-- A window neither starts a run nor resets the machine. -/
theorem quiet_devices : Scripted.devices.Quiet where
  poll _ s turn hturn _ d q hq := by
    obtain ⟨asked, hasked, rfl⟩ := List.mem_map.mp hturn
    obtain rfl : asked = q := Option.some.inj hq
    obtain ⟨e, -, he⟩ := List.mem_filterMap.mp hasked
    obtain rfl | hkey := request_cases he
    · rfl
    · exact Request.isQuiet_of_isKeypad hkey
  sound _ _ := nofun
  render _ _ _ := nofun

/-- The live keypad after all batches were polled. -/
def polls (w : Window) (p : Keypad) : List (List HostEvent) → Except Keypad.Error Keypad
  | [] => .ok p
  | batch :: rest => do
    let p ← Scripted.devices.polled { window := w, pending := batch :: rest } p
    polls w p rest

theorem polled_eq (w : Window) (p : Keypad) (batch : List HostEvent)
    (rest : List (List HostEvent)) :
    Scripted.devices.polled { window := w, pending := batch :: rest } p =
      (w.requests batch).foldlM Request.effect p := by
  show Peripherals.takeTurns ((w.requests batch).map Scripted.always) _ p = _
  rw [Peripherals.takeTurns, List.foldlM_map]
  rfl

/-- The live keypad after what an event asks for, if it asks for anything. -/
def granted (p : Keypad) : Option Request → Except Keypad.Error Keypad
  | some q => q.effect p
  | none => .ok p

/-- The live keypad after one event. -/
def feed (w : Window) (p : Keypad) (e : HostEvent) : Except Keypad.Error Keypad :=
  granted p (w.request e)

theorem quit_keys (w : Window) (p : Keypad) :
    ∃ q, granted p w.quit = .ok q ∧ ∀ k, q.keys.get k = p.keys.get k := by
  unfold quit
  cases w.stops with
  | true => exact ⟨p.interrupt, rfl, fun _ => rfl⟩
  | false => exact ⟨p, rfl, fun _ => rfl⟩

/-- A press or a release of a key that is mapped is passed on. -/
theorem mapped_keys (p : Keypad) (key : String) (down : Bool) :
    ∃ q, granted p ((keyMap.lookup key).map fun i : Fin 16 =>
        Request.keypad (if down then .press i.val else .release i.val)) = .ok q ∧
      ∀ k, q.keys.get k = if keyMap.lookup key = some k then down else p.keys.get k := by
  cases keyMap.lookup key with
  | none => exact ⟨p, rfl, fun k => (if_neg nofun).symm⟩
  | some i =>
    refine ⟨{ p with keys := p.keys.set i down }, ?_, fun k => ?_⟩
    · cases down with
      | true => exact Keypad.set_natCast p i true
      | false => exact Keypad.set_natCast p i false
    · show (p.keys.set i down).get k = _
      rw [Keys.get_set]
      simp only [Option.some.injEq]

/-- An event changes the keys that it is about. -/
theorem feed_keys (w : Window) (p : Keypad) (e : HostEvent) :
    ∃ q, w.feed p e = .ok q ∧ ∀ k, q.keys.get k = (e.touch? k).getD (p.keys.get k) := by
  have hgetD (k : Fin 16) (key : String) (down : Bool) :
      (if keyMap.lookup key = some k then some down else none).getD (p.keys.get k) =
        if keyMap.lookup key = some k then down else p.keys.get k := by
    split <;> rfl
  cases e with
  | quit => exact w.quit_keys p
  | other => exact ⟨p, rfl, fun _ => rfl⟩
  | keyUp key =>
    obtain ⟨q, hq, hkeys⟩ := mapped_keys p key false
    exact ⟨q, hq, fun k => by rw [hkeys, HostEvent.touch?, hgetD]⟩
  | keyDown key =>
    by_cases hkey : key = quitKey
    · subst hkey
      obtain ⟨q, hq, hkeys⟩ := w.quit_keys p
      refine ⟨q, ?_, fun k => ?_⟩
      · rw [feed, request, if_pos rfl]
        exact hq
      · have hnone : keyMap.lookup quitKey = none := by decide
        rw [hkeys, HostEvent.touch?, hgetD, hnone]
        rfl
    · obtain ⟨q, hq, hkeys⟩ := mapped_keys p key true
      refine ⟨q, ?_, fun k => by rw [hkeys, HostEvent.touch?, hgetD]⟩
      rw [feed, request, if_neg hkey]
      exact hq

theorem foldlM_requests (w : Window) (p : Keypad) (es : List HostEvent) :
    (w.requests es).foldlM Request.effect p = es.foldlM w.feed p := by
  induction es generalizing p with
  | nil => rfl
  | cons e es ih =>
    rw [List.foldlM_cons, requests]
    cases hr : w.request e with
    | none =>
      rw [List.filterMap_cons_none hr, feed, hr]
      exact ih p
    | some q =>
      rw [List.filterMap_cons_some hr, List.foldlM_cons, feed, hr]
      exact bind_congr fun p' => ih p'

theorem polls_flatten (w : Window) (p : Keypad) (batches : List (List HostEvent)) :
    w.polls p batches = batches.flatten.foldlM w.feed p := by
  induction batches generalizing p with
  | nil => rfl
  | cons batch rest ih =>
    rw [List.flatten_cons, List.foldlM_append, polls, polled_eq, foldlM_requests]
    exact bind_congr fun p' => ih p'

/-- No event is refused, and each key is what the last event about one of its host keys made it. -/
theorem polls_eq (w : Window) (batches : List (List HostEvent)) :
    ∃ p, w.polls {} batches = .ok p ∧
      ∀ k, p.keys.get k = latest (HostEvent.touch? k) batches.flatten := by
  rw [polls_flatten]
  generalize batches.flatten = es
  induction es using List.reverseRecOn with
  | nil =>
    refine ⟨{}, rfl, fun k => ?_⟩
    exact Vector.getElem_replicate k.isLt
  | append_singleton es e ih =>
    obtain ⟨p, hp, hkeys⟩ := ih
    obtain ⟨q, hq, hkeys'⟩ := w.feed_keys p e
    refine ⟨q, ?_, fun k => ?_⟩
    · rw [List.foldlM_append, hp]
      show (w.feed p e >>= fun p' => [].foldlM w.feed p') = _
      rw [hq]
      rfl
    · rw [hkeys', hkeys, latest_append_singleton]

/-- **Host keys and keys of the keypad.**  After any batches of events a key of the keypad is down
exactly if one of its host keys is held and the last event about them was no release. -/
theorem pad_key_down_iff (w : Window) (batches : List (List HostEvent)) :
    ∃ p, w.polls {} batches = .ok p ∧ ∀ k, p.keys.get k = true ↔
      (∃ key, keyMap.lookup key = some k ∧ Held batches.flatten key) ∧
        ¬ Released batches.flatten k := by
  obtain ⟨p, hp, hkeys⟩ := w.polls_eq batches
  refine ⟨p, hp, fun k => ?_⟩
  rw [hkeys]
  exact latest_touch_iff

/-- Both `w` and the upper arrow stand for the key `2`.  They are held together, and the arrow is
released: the key goes up although `w` is still held. -/
theorem pad_key_up_while_held :
    let w : Window := {
      title := defaultTitle
      scale := defaultScale
      width := 512
      height := 256
      palette := ⟨⟨0, 255, 0⟩, ⟨0, 0, 0⟩⟩
      stops := true
      tone := true }
    let batches := [[.keyDown "w", .keyDown "UP"], [.keyUp "UP"]]
    ∃ p, w.polls {} batches = .ok p ∧ p.keys.get 2 = false ∧
      keyMap.lookup "w" = some 2 ∧ Held batches.flatten "w" := by
  exact ⟨_, rfl, by decide, by decide, by decide⟩

/-- If host keys are released only when they are held, and no two of one key are held at once, then the
key is down exactly if one of them is held. -/
theorem pad_key_down_iff_held (w : Window) (batches : List (List HostEvent)) (k : Fin 16)
    (hup : ∀ pre key post, batches.flatten = pre ++ .keyUp key :: post → Held pre key)
    (halone : ∀ pre key other, pre <+: batches.flatten → keyMap.lookup key = some k →
      keyMap.lookup other = some k → Held pre key → Held pre other → other = key) :
    ∃ p, w.polls {} batches = .ok p ∧
      (p.keys.get k = true ↔ ∃ key, keyMap.lookup key = some k ∧ Held batches.flatten key) := by
  obtain ⟨p, hp, hkeys⟩ := w.polls_eq batches
  refine ⟨p, hp, ?_⟩
  rw [hkeys, latest_touch_iff]
  refine and_iff_left_of_imp ?_
  rintro ⟨key, hkey, hheld⟩ hr
  obtain ⟨pre, other, hpre, hother, hne, hheld', hheld⟩ := two_held_of_released hup hkey hheld hr
  exact hne (halone pre key other hpre hkey hother hheld hheld')

end Window

end Chip8
