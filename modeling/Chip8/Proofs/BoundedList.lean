import Chip8.Proofs.Invariant
import Mathlib.Data.List.Basic

/-!
# The call stack as a list

Sixteen slots and a depth stand for a list of at most sixteen addresses, the last of them on top.

* `Call`                   a push of any whole number, or a pop;
* `after`, `built`         the stack after calls, and the list that those of them build which succeed;
* `Represents s l`         the slots hold the list and then nothing, and the depth is its length;
* `Represents.reply_eq`    what a call returns, or why it is refused, is read off the list;
* `Represents.next`        a call that succeeds does to the list what it does to the stack;
* `represents_built`       the main statement.
-/

namespace Chip8.CallStack

inductive Call where
  | push (address : Int)
  | pop

namespace Call

/-- What a call returns, and the stack after it. -/
def act (s : CallStack) : Call → Except Cause (Option UInt16 × CallStack)
  | push a => (s.push a).map fun t => (none, t)
  | pop => s.pop.map fun r => (some r.1, r.2)

/-- What a call that succeeds does to a list.  An address is kept modulo 65536. -/
def onto (l : List Int) : Call → List Int
  | push a => l ++ [a % 65536]
  | pop => l.dropLast

/-- What a call on a list of at most sixteen returns. -/
def reply (l : List Int) : Call → Except Cause (Option Int)
  | push _ => if l.length = 16 then .error .stackOverflow else .ok none
  | pop =>
    match l.getLast? with
    | none => .error .stackUnderflow
    | some a => .ok (some a)

end Call

/-- The stack after a call.  One that is refused leaves it as it is. -/
def next (s : CallStack) (c : Call) : CallStack :=
  match c.act s with
  | .ok r => r.2
  | .error _ => s

def after (s : CallStack) (calls : List Call) : CallStack := calls.foldl next s

/-- The list after calls, `l` before them: those that succeed are done to it. -/
def built (s : CallStack) (l : List Int) : List Call → List Int
  | [] => l
  | c :: calls =>
    match c.act s with
    | .ok r => built r.2 (c.onto l) calls
    | .error _ => built s l calls

/-- The number that a slot holds. -/
def address (w : UInt16) : Int := w.toNat

structure Represents (s : CallStack) (l : List Int) : Prop where
  depth : s.depth = l.length
  length_le : l.length ≤ 16
  slots : s.slots.toList.map address = l ++ List.replicate (16 - l.length) 0

/-! ### One call -/

theorem address_ofInt (a : Int) : address (UInt16.ofInt a) = a % 65536 := by
  have hpos : 0 ≤ a % 65536 := Int.emod_nonneg a (by decide)
  have hlt : a % 65536 < 65536 := Int.emod_lt_of_pos a (by decide)
  have h : (UInt16.ofInt a).toNat = (a % 65536).toNat := by
    simp [UInt16.ofInt]
    omega
  rw [address, h, Int.toNat_of_nonneg hpos]

theorem push_eq (s : CallStack) (a : Int) : s.push a =
    if 16 ≤ s.depth then .error .stackOverflow else .ok (s.append (UInt16.ofInt a)) := rfl

namespace Represents
variable {s t : CallStack} {l : List Int}

theorem empty : Represents empty [] where
  depth := rfl
  length_le := Nat.zero_le _
  slots := by decide

/-- A list with room takes one address more, in the first slot that is free. -/
theorem append (h : Represents s l) (hroom : l.length < 16) (a : Int) :
    Represents (s.append (UInt16.ofInt a)) (l ++ [a % 65536]) where
  depth := by
    rw [List.length_append]
    exact congrArg (· + 1) h.depth
  length_le := by
    rw [List.length_append]
    exact hroom
  slots := by
    obtain ⟨n, hn⟩ : ∃ n, 16 - l.length = n + 1 := ⟨15 - l.length, by omega⟩
    have hrest : 16 - (l ++ [a % 65536]).length = n := by
      rw [List.length_append, List.length_singleton]
      omega
    show ((s.slots.setIfInBounds s.depth _).toList).map address = _
    rw [Vector.toList_setIfInBounds, List.map_set, h.slots, h.depth, address_ofInt, hn, hrest,
      List.set_append_right _ _ (Nat.le_refl _), Nat.sub_self, List.replicate_succ, List.set_cons_zero,
      List.append_assoc]
    rfl

theorem depth_concat {a : Int} (h : Represents s (l ++ [a])) : s.depth = l.length + 1 := by
  rw [h.depth, List.length_append]
  rfl

/-- The last address is on top. -/
theorem top {a : Int} (h : Represents s (l ++ [a])) : address s.top = a := by
  have hlt : s.depth - 1 < 16 := by
    have := h.length_le
    rw [← h.depth] at this
    omega
  have hslot : (s.slots.toList.map address)[s.depth - 1]? = some a := by
    rw [h.slots, h.depth_concat, Nat.add_sub_cancel, List.append_assoc,
      List.getElem?_append_right (Nat.le_refl _), Nat.sub_self]
    rfl
  rw [List.getElem?_map, Vector.getElem?_toList, Vector.getElem?_eq_getElem hlt] at hslot
  rw [top_eq s hlt]
  exact Option.some.inj hslot

theorem dropTop {a : Int} (h : Represents s (l ++ [a])) : Represents s.dropTop l where
  depth := by
    show s.depth - 1 = _
    rw [h.depth_concat, Nat.add_sub_cancel]
  length_le := by
    have := h.length_le
    rw [List.length_append] at this
    omega
  slots := by
    have hle := h.length_le
    rw [List.length_append, List.length_singleton] at hle
    have hrest : 16 - l.length = 16 - (l ++ [a]).length + 1 := by
      rw [List.length_append, List.length_singleton]
      omega
    show ((s.slots.setIfInBounds (s.depth - 1) 0).toList).map address = _
    rw [Vector.toList_setIfInBounds, List.map_set, h.slots, h.depth_concat, Nat.add_sub_cancel,
      List.append_assoc, List.set_append_right _ _ (Nat.le_refl _), Nat.sub_self, hrest,
      List.replicate_succ]
    rfl

/-- What a call returns is read off the list. -/
theorem reply_eq (h : Represents s l) (c : Call) :
    (c.act s).map (fun r => r.1.map address) = c.reply l := by
  have hle := h.length_le
  cases c with
  | push a =>
    rw [Call.act, push_eq, Call.reply, h.depth]
    by_cases hfull : l.length = 16
    · rw [if_pos hfull, if_pos (by omega)]
      rfl
    · rw [if_neg hfull, if_neg (by omega)]
      rfl
  | pop =>
    rw [Call.act, pop_eq]
    obtain rfl | ⟨l', a, rfl⟩ := List.eq_nil_or_concat' l
    · have hzero : s.depth = 0 := h.depth
      rw [if_pos hzero]
      rfl
    · rw [if_neg (by rw [h.depth_concat]; omega), Call.reply, List.getLast?_concat]
      exact congrArg (fun b => Except.ok (some b)) h.top

/-- A call that succeeds does to the list what it does to the stack. -/
theorem act (h : Represents s l) {c : Call} {r : Option UInt16} (hc : c.act s = .ok (r, t)) :
    Represents t (c.onto l) := by
  cases c with
  | push a =>
    rw [Call.act, push_eq, h.depth] at hc
    by_cases hfull : 16 ≤ l.length
    · rw [if_pos hfull] at hc
      cases hc
    · rw [if_neg hfull] at hc
      cases hc
      exact h.append (Nat.lt_of_not_le hfull) a
  | pop =>
    rw [Call.act, pop_eq] at hc
    obtain rfl | ⟨l', a, rfl⟩ := List.eq_nil_or_concat' l
    · have hzero : s.depth = 0 := h.depth
      rw [if_pos hzero] at hc
      cases hc
    · rw [if_neg (by rw [h.depth_concat]; omega)] at hc
      cases hc
      rw [Call.onto, List.dropLast_concat]
      exact h.dropTop

end Represents

/-! ### Calls one after the other -/

theorem after_built {s : CallStack} {l : List Int} (h : Represents s l) (calls : List Call) :
    Represents (s.after calls) (s.built l calls) := by
  induction calls generalizing s l with
  | nil => exact h
  | cons c calls ih =>
    show Represents ((s.next c).after calls) _
    rw [built, next]
    cases hc : c.act s with
    | ok r => exact ih (h.act hc)
    | error e => exact ih h

/-- **The call stack is a bounded list.**  After any calls on an empty stack it represents the list that the
successful ones have built.  The next call returns what this list says, and changes nothing if it is
refused. -/
theorem represents_built (calls : List Call) :
    let s := empty.after calls
    let l := empty.built [] calls
    Represents s l ∧ ∀ c : Call, (c.act s).map (fun r => r.1.map address) = c.reply l ∧
      ∀ e, c.act s = .error e → empty.after (calls ++ [c]) = s := by
  intro s l
  have h : Represents s l := after_built .empty calls
  refine ⟨h, fun c => ⟨h.reply_eq c, fun e he => ?_⟩⟩
  rw [after, List.foldl_append]
  show s.next c = s
  rw [next, he]

end Chip8.CallStack
