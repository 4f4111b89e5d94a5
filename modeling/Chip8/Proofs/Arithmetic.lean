import Chip8.Proofs.Frame

/-!
# Arithmetic on two registers

The words `8XYN` combine `VX` and `VY`.  The bitwise ones leave a result in `VX` and nothing else.  The
others leave a flag in `VF`, too, and result and flag together are exact: read as numbers, they make up
the whole sum, difference or shifted operand.  Either operand may be the flag register, and so may
the result, which then is lost, because the flag is written after it.

* `Arith.Balances`   what result and flag of an operation say about its operands;
* `apply_balances`   the operations on bytes do so;
* `State.Flagged`    the registers after a result and a flag were written, `State.Assigned` after a
                     result alone;
* `arith_exact`      the main statement, word by word.
-/

namespace Chip8

/-- The operands are `a` in `VX` and `b` in `VY`, and a shift has one of them as its source. -/
def Arith.Balances (a b source r f : Int) : Arith → Prop
  | .add => 256 * f + r = a + b
  | .sub => r = a - b + 256 * (1 - f)
  | .subFrom => r = b - a + 256 * (1 - f)
  | .shiftRight => 2 * r + f = source
  | .shiftLeft => 256 * f + r = 2 * source
  | .set | .or | .and | .xor => False

/-! ### Bytes -/

section
variable (a b : UInt8)

theorem toNat_add_carry :
    256 * (if 0xFF < a.toNat + b.toNat then 1 else 0 : UInt8).toNat + (a + b).toNat =
      a.toNat + b.toNat := by
  have ha := a.toNat_lt
  have hb := b.toNat_lt
  rw [UInt8.toNat_add]
  by_cases h : 0xFF < a.toNat + b.toNat
  · rw [if_pos h]
    show 256 * 1 + _ = _
    omega
  · rw [if_neg h]
    show 256 * 0 + _ = _
    omega

/-- The flag of a difference is raised if nothing had to be borrowed. -/
theorem toNat_sub_borrow :
    (a - b).toNat + b.toNat + 256 * (if b ≤ a then 1 else 0 : UInt8).toNat = a.toNat + 256 := by
  have ha := a.toNat_lt
  have hb := b.toNat_lt
  rw [UInt8.toNat_sub]
  by_cases h : b ≤ a
  · have hle := UInt8.le_iff_toNat_le.mp h
    rw [if_pos h]
    show _ + _ + 256 * 1 = _
    omega
  · have hlt : ¬ b.toNat ≤ a.toNat := fun hle => h (UInt8.le_iff_toNat_le.mpr hle)
    rw [if_neg h]
    show _ + _ + 256 * 0 = _
    omega

theorem toNat_shiftRight_one : (a >>> 1).toNat = a.toNat / 2 := by
  rw [UInt8.toNat_shiftRight]
  exact Nat.shiftRight_eq_div_pow _ 1

theorem toNat_shiftRight_seven : (a >>> 7).toNat = a.toNat / 128 := by
  rw [UInt8.toNat_shiftRight]
  exact Nat.shiftRight_eq_div_pow _ 7

theorem toNat_shiftLeft_one : (a <<< 1).toNat = a.toNat * 2 % 256 := by
  rw [UInt8.toNat_shiftLeft]
  exact congrArg (· % 256) (Nat.shiftLeft_eq _ 1)

end

/-- Result and flag of an operation balance. -/
theorem Arith.apply_balances {op : Arith} (h : op.setsFlag = true) (a b source : UInt8) :
    ∃ r f : UInt8, op.apply a b source = (r, some f) ∧ f.toNat ≤ 1 ∧
      op.Balances a.toNat b.toNat source.toNat r.toNat f.toNat := by
  have bit (p : Prop) [Decidable p] : (if p then 1 else 0 : UInt8).toNat ≤ 1 := by
    split <;> decide
  cases op with
  | set | or | and | xor => cases h
  | add =>
    have hsum := toNat_add_carry a b
    refine ⟨_, _, rfl, bit _, ?_⟩
    show 256 * _ + _ = _
    omega
  | sub =>
    have hdiff := toNat_sub_borrow a b
    refine ⟨_, _, rfl, bit _, ?_⟩
    show _ = _ - _ + 256 * (1 - _)
    omega
  | subFrom =>
    have hdiff := toNat_sub_borrow b a
    refine ⟨_, _, rfl, bit _, ?_⟩
    show _ = _ - _ + 256 * (1 - _)
    omega
  | shiftRight =>
    have hr := toNat_shiftRight_one source
    have hf := Number.toNat_and_one source
    refine ⟨_, _, rfl, by omega, ?_⟩
    show 2 * _ + _ = _
    omega
  | shiftLeft =>
    have hlt := source.toNat_lt
    have hr := toNat_shiftLeft_one source
    have hf := toNat_shiftRight_seven source
    refine ⟨_, _, rfl, by omega, ?_⟩
    show 256 * _ + _ = 2 * _
    omega

namespace State
variable {s : State} {x : Fin 16}

/-! ### Registers -/

/-- From `s` to `t` one word was passed, the result `r` was written to `VX` and the flag `f` to `VF`, in
this order, and nothing else. -/
structure Flagged (s t : State) (x : Fin 16) (r f : Int) : Prop where
  range : 0 ≤ r ∧ r ≤ 255
  bit : f = 0 ∨ f = 1
  flag : ((t.v.get 15).toNat : Int) = f
  result : x ≠ 15 → ((t.v.get x).toNat : Int) = r
  others : ∀ k, k ≠ x → k ≠ 15 → t.v.get k = s.v.get k
  rest : t = { s.skip with v := t.v }

/-- The same for a result without a flag. -/
structure Assigned (s t : State) (x : Fin 16) (r : Nat) : Prop where
  result : (t.v.get x).toNat = r
  others : ∀ k, k ≠ x → t.v.get k = s.v.get k
  rest : t = { s.skip with v := t.v }

theorem assigned_setV (s : State) (x : Fin 16) (r : UInt8) :
    Assigned s (s.skip.setV x r) x r.toNat where
  result := congrArg UInt8.toNat (getV_setV_self _ x r)
  others _ hk := getV_setV_of_ne _ hk r
  rest := rfl

theorem flagged_setV (s : State) (x : Fin 16) (r : UInt8) {f : UInt8} (hf : f.toNat ≤ 1) :
    Flagged s ((s.skip.setV x r).setV flag f) x r.toNat f.toNat where
  range := by
    have := r.toNat_lt
    omega
  bit := by omega
  flag := congrArg (fun b : UInt8 => (b.toNat : Int)) (getV_setV_self _ State.flag f)
  result hx := by
    rw [getV_setV_of_ne _ hx, getV_setV_self]
  others k hk hflag := by
    rw [getV_setV_of_ne _ hflag, getV_setV_of_ne _ hk]
    rfl
  rest := rfl

/-! ### Words -/

theorem execute_arith (s : State) (op : Arith) (x y : Fin 16) :
    s.execute (0x8000 + x * 0x100 + y * 0x10 + op.nibble) = .ok (s.skip.arith op x y) := by
  refine execute_eq_ok_iff.mpr ⟨.arith op x y, ?_, rfl⟩
  show ((8 * 0x1000 + x * 0x100 + y * 0x10 + op.nibble : Nat) : Int) = _
  omega

/-- The operand of a shift is chosen by the mode. -/
theorem execute_flagged (s : State) (op : Arith) (h : op.setsFlag = true) (x y : Fin 16) :
    ∃ (t : State) (r f : Int), s.execute (0x8000 + x * 0x100 + y * 0x10 + op.nibble) = .ok t ∧
      Flagged s t x r f ∧
      op.Balances (s.v.get x).toNat (s.v.get y).toNat
        (if s.legacy then (s.v.get y).toNat else (s.v.get x).toNat : Nat) r f := by
  obtain ⟨r, f, happly, hf, hbalance⟩ := Arith.apply_balances h (s.v.get x) (s.v.get y)
    (if s.legacy then s.v.get y else s.v.get x)
  have ht : s.skip.arith op x y = (s.skip.setV x r).setV flag f := by
    have happly : op.apply (s.skip.v.get x) (s.skip.v.get y)
        (if s.skip.legacy then s.skip.v.get y else s.skip.v.get x) = (r, some f) := happly
    rw [arith]
    simp only [happly]
  refine ⟨_, r.toNat, f.toNat, execute_arith s op x y, ?_, ?_⟩
  · rw [ht]
    exact flagged_setV s x r hf
  · rw [apply_ite UInt8.toNat] at hbalance
    exact hbalance

/-- **Exact arithmetic.**  Whatever the registers hold, in either mode, and whichever registers `X`
and `Y` are: an `8XYN` word with a flag writes a result and then a flag that balance with the operands,
and a bitwise one writes its result alone. -/
theorem arith_exact (s : State) (x y : Fin 16) :
    let a := (s.v.get x).toNat
    let b := (s.v.get y).toNat
    let source := if s.legacy then b else a
    let word (n : Int) : Int := 0x8000 + x * 0x100 + y * 0x10 + n
    (∃ t r f, s.execute (word 0x4) = .ok t ∧ Flagged s t x r f ∧ 256 * f + r = a + b) ∧
    (∃ t r f, s.execute (word 0x5) = .ok t ∧ Flagged s t x r f ∧ r = a - b + 256 * (1 - f)) ∧
    (∃ t r f, s.execute (word 0x7) = .ok t ∧ Flagged s t x r f ∧ r = b - a + 256 * (1 - f)) ∧
    (∃ t r f, s.execute (word 0x6) = .ok t ∧ Flagged s t x r f ∧ 2 * r + f = source) ∧
    (∃ t r f, s.execute (word 0xE) = .ok t ∧ Flagged s t x r f ∧ 256 * f + r = 2 * source) ∧
    (∃ t, s.execute (word 0x0) = .ok t ∧ Assigned s t x b) ∧
    (∃ t, s.execute (word 0x1) = .ok t ∧ Assigned s t x (a ||| b)) ∧
    (∃ t, s.execute (word 0x2) = .ok t ∧ Assigned s t x (a &&& b)) ∧
    (∃ t, s.execute (word 0x3) = .ok t ∧ Assigned s t x (a ^^^ b)) := by
  intro a b source word
  refine ⟨?_, ?_, ?_, ?_, ?_, ?_, ?_, ?_, ?_⟩
  · exact execute_flagged s .add rfl x y
  · exact execute_flagged s .sub rfl x y
  · exact execute_flagged s .subFrom rfl x y
  · exact execute_flagged s .shiftRight rfl x y
  · exact execute_flagged s .shiftLeft rfl x y
  · exact ⟨_, execute_arith s .set x y, assigned_setV s x _⟩
  · have h := assigned_setV s x (s.v.get x ||| s.v.get y)
    rw [UInt8.toNat_or] at h
    exact ⟨_, execute_arith s .or x y, h⟩
  · have h := assigned_setV s x (s.v.get x &&& s.v.get y)
    rw [UInt8.toNat_and] at h
    exact ⟨_, execute_arith s .and x y, h⟩
  · have h := assigned_setV s x (s.v.get x ^^^ s.v.get y)
    rw [UInt8.toNat_xor] at h
    exact ⟨_, execute_arith s .xor x y, h⟩

end State

end Chip8
