import Chip8.Proofs.Keyboard
import Chip8.Proofs.LastOfKind
import Chip8.Proofs.Literal
import Chip8.Proofs.Session.Exec

/-!
# Calls to the live keypad

The sixteen keys and the pending interrupt after any calls, some of which may be refused.

* `Call`, `after`         the calls, and the keypad after some of them;
* `Call.Puts c k down`    the call is granted, and makes the key `k` go down or up;
* `Call.Malformed`        the calls that are refused: a key out of range, or not sixteen values in a row;
* `Pending calls`         an interrupt was issued and nobody has waited since;
* `keys_follow_calls`     the main statement.
-/

namespace Chip8

namespace Keypad
variable {p q : Keypad}

/-! ### One call -/

theorem setAll_items (p : Keypad) (keys : Keys) :
    p.setAll (keys.toList.map .item) = .ok { p with keys } := by
  have hshape : (Nested.list (keys.toList.map .item)).shape = ⟨[16], false⟩ := by
    rw [Nested.shape_list_item, Vector.length_toList]
  have hkeys : (Vector.ofFn fun i : Fin 16 => keys.toList[i.val]?.getD false) = keys := by
    refine Vector.ext fun i hi => ?_
    rw [Vector.getElem_ofFn, Vector.getElem?_toList, Vector.getElem?_eq_getElem hi]
    rfl
  simp only [setAll, hshape, Nested.itemsAll_map_item, hkeys]
  rfl

/-- Sixteen values in a row are granted, and nothing else is. -/
theorem setAll_eq_ok {states : List (Nested Bool)} (h : p.setAll states = .ok q) :
    ∃ keys : Keys, states = keys.toList.map .item := by
  have hshape : (Nested.list states).shape = ⟨[16], false⟩ := by
    rw [setAll] at h
    generalize (Nested.list states).shape = shape at h
    obtain ⟨dims, ragged⟩ := shape
    cases ragged with
    | true => cases h
    | false =>
      by_cases hdims : dims = [16]
      · rw [hdims]
      · simp [hdims] at h
  obtain ⟨l, hl, rfl⟩ := Nested.flat_of_shape hshape
  exact ⟨⟨l.toArray, hl⟩, rfl⟩

inductive Call where
  | change (c : Change)
  | interrupt
  | wait

namespace Call

def act (p : Keypad) : Call → Except Error Keypad
  | change c => p.change c
  | interrupt => .ok p.interrupt
  | wait => .ok p.afterWait

/-- The call is granted, and puts the key down or up. -/
inductive Puts : Call → Fin 16 → Bool → Prop
  | press (k : Fin 16) : Puts (.change (.press k.val)) k true
  | release (k : Fin 16) : Puts (.change (.release k.val)) k false
  | setAll (keys : Keys) (k : Fin 16) :
    Puts (.change (.setAll (keys.toList.map .item))) k (keys.get k)
  | clear (k : Fin 16) : Puts (.change .clear) k false

/-- The call says whether the key is down. -/
def Settles (k : Fin 16) (c : Call) : Prop := ∃ down, c.Puts k down

inductive Malformed : Call → Prop
  | press {k : Int} (h : k < 0 ∨ 16 ≤ k) : Malformed (.change (.press k))
  | release {k : Int} (h : k < 0 ∨ 16 ≤ k) : Malformed (.change (.release k))
  | setAll {states : List (Nested Bool)} (h : ∀ keys : Keys, states ≠ keys.toList.map .item) :
    Malformed (.change (.setAll states))

/-- The call is about the interrupt. -/
def Rings (c : Call) : Prop := c = .interrupt ∨ c = .wait

end Call

/-- The keypad after a call.  One that is refused leaves it as it is. -/
def next (p : Keypad) (c : Call) : Keypad :=
  match c.act p with
  | .ok q => q
  | .error _ => p

/-- A number is out of range, or that of a key. -/
theorem key_cases (k : Int) : (k < 0 ∨ 16 ≤ k) ∨ ∃ i : Fin 16, k = i.val := by
  by_cases h : 0 ≤ k ∧ k < 16
  · exact .inr ⟨⟨k.toNat, by omega⟩, (Int.toNat_of_nonneg h.1).symm⟩
  · exact .inl (by omega)

theorem set_outside {k : Int} (h : k < 0 ∨ 16 ≤ k) (down : Bool) : ∃ e, p.set k down = .error e :=
  set_eq_error_iff.mpr h

theorem refused_iff (p : Keypad) (c : Call) : (∃ e, c.act p = .error e) ↔ c.Malformed := by
  constructor
  · rintro ⟨e, he⟩
    match c, he with
    | .change (.press k), he => exact .press (set_eq_error_iff.mp ⟨e, he⟩)
    | .change (.release k), he => exact .release (set_eq_error_iff.mp ⟨e, he⟩)
    | .change (.setAll states), he =>
      refine .setAll fun keys hkeys => ?_
      rw [Call.act, hkeys, change, setAll_items] at he
      cases he
  · intro h
    cases h with
    | press h | release h => exact set_outside h _
    | @setAll states h =>
      show ∃ e, p.setAll states = .error e
      cases hs : p.setAll states with
      | error e => exact ⟨e, rfl⟩
      | ok q =>
        obtain ⟨keys, hkeys⟩ := setAll_eq_ok hs
        exact absurd hkeys (h keys)

theorem next_of_malformed {c : Call} (h : c.Malformed) : p.next c = p := by
  obtain ⟨e, he⟩ := (refused_iff p c).mpr h
  rw [next, he]

/-- What a call says of a key is so after it. -/
theorem get_next_of_puts {c : Call} {k : Fin 16} {down : Bool} (h : c.Puts k down) :
    (p.next c).keys.get k = down := by
  cases h with
  | press =>
    rw [next, Call.act, change, press, set_natCast]
    exact (Keys.get_set p.keys k k true).trans (if_pos rfl)
  | release =>
    rw [next, Call.act, change, release, set_natCast]
    exact (Keys.get_set p.keys k k false).trans (if_pos rfl)
  | setAll keys => rw [next, Call.act, change, setAll_items]
  | clear => exact Vector.getElem_replicate k.isLt

/-- A call that says nothing of a key leaves it as it is. -/
theorem get_next_of_not_settles {c : Call} {k : Fin 16} (h : ¬ c.Settles k) :
    (p.next c).keys.get k = p.keys.get k := by
  match c with
  | .change (.press i) =>
    obtain hout | ⟨i, rfl⟩ := key_cases i
    · rw [next_of_malformed (.press hout)]
    · rw [next, Call.act, change, press, set_natCast]
      refine (Keys.get_set p.keys i k true).trans (if_neg ?_)
      rintro rfl
      exact h ⟨_, .press i⟩
  | .change (.release i) =>
    obtain hout | ⟨i, rfl⟩ := key_cases i
    · rw [next_of_malformed (.release hout)]
    · rw [next, Call.act, change, release, set_natCast]
      refine (Keys.get_set p.keys i k false).trans (if_neg ?_)
      rintro rfl
      exact h ⟨_, .release i⟩
  | .change (.setAll states) =>
    rw [next_of_malformed]
    refine .setAll ?_
    rintro keys rfl
    exact h ⟨_, .setAll keys k⟩
  | .change .clear => exact absurd ⟨_, .clear k⟩ h
  | .interrupt | .wait => rfl

theorem interrupted_of_set {k : Int} {down : Bool} (h : p.set k down = .ok q) :
    q.interrupted = p.interrupted := by
  obtain hout | ⟨i, rfl⟩ := key_cases k
  · obtain ⟨e, he⟩ := set_outside (p := p) hout down
    rw [he] at h
    cases h
  · rw [set_natCast] at h
    cases h
    rfl

/-- The other calls have nothing to do with the interrupt. -/
theorem interrupted_next_of_not_rings {c : Call} (h : ¬ c.Rings) :
    (p.next c).interrupted = p.interrupted := by
  rw [next]
  cases hc : c.act p with
  | error e => rfl
  | ok q =>
    match c, hc with
    | .change (.press k), hc | .change (.release k), hc => exact interrupted_of_set hc
    | .change (.setAll states), hc =>
      obtain ⟨keys, rfl⟩ := setAll_eq_ok hc
      rw [Call.act, change, setAll_items] at hc
      cases hc
      rfl
    | .change .clear, hc =>
      cases hc
      rfl
    | .interrupt, _ => exact absurd (.inl rfl) h
    | .wait, _ => exact absurd (.inr rfl) h

/-- A wait runs out if no key is down and no interrupt is pending. -/
theorem wake_ne_timeout_iff : p.wake ≠ .timeout ↔ p.keys.any = true ∨ p.interrupted = true := by
  rw [wake]
  cases p.keys.any with
  | true => simp
  | false => cases p.interrupted <;> simp

/-! ### Calls one after the other -/

def after (p : Keypad) (calls : List Call) : Keypad := calls.foldl next p

theorem after_concat (p : Keypad) (calls : List Call) (c : Call) :
    p.after (calls ++ [c]) = (p.after calls).next c := List.foldl_concat ..

/-- Of the interrupts and the waits, the last one is an interrupt. -/
def Pending (calls : List Call) : Prop := IsLast Call.Rings .interrupt calls

theorem get_after_iff (calls : List Call) (k : Fin 16) :
    (after {} calls).keys.get k = true ↔ ∃ c, IsLast (Call.Settles k) c calls ∧ c.Puts k true := by
  induction calls using List.reverseRecOn with
  | nil =>
    have hup : (after {} []).keys.get k = false := Vector.getElem_replicate k.isLt
    rw [hup]
    exact iff_of_false Bool.false_ne_true fun ⟨c, hc, _⟩ => IsLast.of_nil hc
  | append_singleton calls c ih =>
    rw [after_concat]
    by_cases hc : c.Settles k
    · simp only [IsLast.concat_iff hc, exists_eq_left]
      obtain ⟨down, hdown⟩ := hc
      constructor
      · intro h
        rw [get_next_of_puts hdown] at h
        exact h ▸ hdown
      · exact get_next_of_puts
    · simp only [IsLast.concat_iff_of_not hc]
      rw [get_next_of_not_settles hc, ih]

theorem interrupted_after_iff (calls : List Call) :
    (after {} calls).interrupted = true ↔ Pending calls := by
  induction calls using List.reverseRecOn with
  | nil => exact iff_of_false Bool.false_ne_true IsLast.of_nil
  | append_singleton calls c ih =>
    rw [after_concat]
    by_cases hc : c.Rings
    · rw [Pending, IsLast.concat_iff hc]
      obtain rfl | rfl := hc
      · exact iff_of_true rfl rfl
      · exact iff_of_false Bool.false_ne_true nofun
    · rw [Pending, IsLast.concat_iff_of_not hc, interrupted_next_of_not_rings hc]
      exact ih

/-- What a wait comes to if nobody touches the keys while it lasts. -/
theorem exec_waitForPress {σ : Type} {s : Session σ} (hkeypad : s.machine.keypad = p)
    (hscript : s.script = []) (timeout : Float) :
    Session.exec (Session.waitForPress timeout) s = (.ok p.keys.any, s.waited timeout p) := by
  refine Session.exec_waitForPress_ok ?_ timeout
  rw [Session.scripted, hscript, hkeypad]
  rfl

/-- **The keypad follows its calls.**  A key is down exactly if the last call that was granted and is about it
put it down.  A wait does not run out exactly if a key is down or an interrupt was issued since the last
wait, and it leaves no interrupt. -/
theorem keys_follow_calls (calls : List Call) :
    let p := after {} calls
    let p' := after {} (calls ++ [.wait])
    (∀ k, p.keys.get k = true ↔ ∃ c, IsLast (Call.Settles k) c calls ∧ c.Puts k true) ∧
    -- the next call is refused exactly if it is malformed
    (∀ c : Call, ((∃ e, c.act p = .error e) ↔ c.Malformed) ∧
      (c.Malformed → after {} (calls ++ [c]) = p)) ∧
    (p.wake ≠ .timeout ↔ (∃ k, p.keys.get k = true) ∨ Pending calls) ∧
    (p'.keys = p.keys ∧ p'.interrupted = false ∧
      (p'.wake ≠ .timeout ↔ ∃ k, p.keys.get k = true)) ∧
    -- a wait of a session takes its time only if it runs out
    ∀ (σ : Type) (s : Session σ) (timeout : Float), s.machine.keypad = p → s.script = [] →
      ∃ b t, Session.exec (Session.waitForPress timeout) s = (.ok b, t) ∧
        (b = true ↔ ∃ k, p.keys.get k = true) ∧ t.machine.keypad = p' ∧
        t.clock = if p.wake = .timeout then s.clock + timeout else s.clock := by
  intro p p'
  have hp' : p' = p.afterWait := after_concat {} calls .wait
  refine ⟨get_after_iff calls, fun c => ⟨refused_iff p c, fun hc => ?_⟩, ?_, ?_, ?_⟩
  · rw [after_concat]
    exact next_of_malformed hc
  · rw [wake_ne_timeout_iff, Keys.any_iff, interrupted_after_iff]
  · rw [hp']
    refine ⟨rfl, rfl, ?_⟩
    rw [wake_ne_timeout_iff, Keys.any_iff]
    exact or_iff_left Bool.false_ne_true
  · intro σ s timeout hkeypad hscript
    exact ⟨_, _, exec_waitForPress hkeypad hscript timeout, Keys.any_iff, hp'.symm, rfl⟩

end Keypad

end Chip8
