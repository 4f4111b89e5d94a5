import Chip8.Keys
import Chip8.Nested

/-!
# The live keypad

Sixteen keys that the host presses and releases, and an interrupt that stays pending until the next
wait.  A wait ends at once if a key is down or an interrupt is pending; in any case it leaves none
pending.  A refused call changes nothing.
-/

namespace Chip8

structure Keypad where
  keys : Keys := .none
  interrupted : Bool := false
  deriving DecidableEq

namespace Keypad

inductive Error where
  | noSuchKey (key : Int)
  /-- A list of the wrong shape; `count` is its outer length. -/
  | wrongShape (count : Nat)
  | ragged (shape : Shape)
  deriving DecidableEq, Repr

def Error.message : Error → String
  | noSuchKey k => "Key index must be 0x0-0xF, got " ++ Numeral.decimal k
  | wrongShape n => "Expected 16 key states, got " ++ Numeral.decimal n
  | ragged shape => shape.raggedMessage

def checkKey (k : Int) : Except Error (Fin 16) :=
  if h : 0 ≤ k ∧ k < 16 then .ok ⟨k.toNat, by omega⟩ else .error (.noSuchKey k)

def set (p : Keypad) (k : Int) (down : Bool) : Except Error Keypad := do
  let i ← checkKey k
  return { p with keys := p.keys.set i down }

def press (p : Keypad) (k : Int) : Except Error Keypad := p.set k true

def release (p : Keypad) (k : Int) : Except Error Keypad := p.set k false

/-- Replace all sixteen states. -/
def setAll (p : Keypad) (states : List (Nested Bool)) : Except Error Keypad :=
  let shape := (Nested.list states).shape
  let values := Nested.itemsAll states
  if shape.ragged then .error (.ragged shape)
  else if shape.dims = [16] then
    .ok { p with keys := Vector.ofFn fun i => values[i.val]?.getD false }
  else .error (.wrongShape states.length)

def clear (p : Keypad) : Keypad := { p with keys := .none }

/-- A change that the host makes to the keys. -/
inductive Change where
  | press (key : Int)
  | release (key : Int)
  | setAll (states : List (Nested Bool))
  | clear

def change (p : Keypad) : Change → Except Error Keypad
  | .press k => p.press k
  | .release k => p.release k
  | .setAll states => p.setAll states
  | .clear => .ok p.clear

def isPressed (p : Keypad) (k : Int) : Except Error Bool := do
  return p.keys.get (← checkKey k)

def interrupt (p : Keypad) : Keypad := { p with interrupted := true }

/-- What ended a wait. -/
inductive Wake where
  | key
  | interrupt
  | timeout
  deriving DecidableEq, Repr

/-- What a wait ends with if nothing changes while it lasts. -/
def wake (p : Keypad) : Wake :=
  if p.keys.any then .key else if p.interrupted then .interrupt else .timeout

/-- The keypad after a wait. -/
def afterWait (p : Keypad) : Keypad := { p with interrupted := false }

def summary (p : Keypad) : String :=
  "Keypad(pressed=[" ++ " ".intercalate (p.keys.held.map fun i => Numeral.hex 0 i.val) ++ "])"

/-! ### What each call leaves behind -/

theorem checkKey_eq_ok_iff {k : Int} {i : Fin 16} : checkKey k = .ok i ↔ k = i.val := by
  unfold checkKey
  split
  · rename_i h
    simp only [Except.ok.injEq, Fin.ext_iff]
    omega
  · rename_i h
    simp only [reduceCtorEq, false_iff]
    omega

theorem set_natCast (p : Keypad) (i : Fin 16) (down : Bool) :
    p.set i.val down = .ok { p with keys := p.keys.set i down } := by
  have h : checkKey i.val = .ok i := checkKey_eq_ok_iff.mpr rfl
  simp [set, h, bind, Except.bind, pure, Except.pure]

/-- A key is refused exactly outside `0` to `15`. -/
theorem set_eq_error_iff {p : Keypad} {k : Int} {down : Bool} :
    (∃ e, p.set k down = .error e) ↔ k < 0 ∨ 16 ≤ k := by
  constructor
  · rintro ⟨e, h⟩
    false_or_by_contra
    rename_i hk
    have hc := set_natCast p ⟨k.toNat, by omega⟩ down
    have : ((k.toNat : Nat) : Int) = k := Int.toNat_of_nonneg (by omega)
    simp only [this] at hc
    rw [hc] at h
    cases h
  · intro hk
    refine ⟨.noSuchKey k, ?_⟩
    have : ¬ (0 ≤ k ∧ k < 16) := by omega
    simp [set, checkKey, this, bind, Except.bind]

theorem wake_eq_key_iff {p : Keypad} : p.wake = .key ↔ p.keys.any = true := by
  unfold wake
  split
  · simp_all
  · split <;> simp_all

end Keypad

end Chip8
