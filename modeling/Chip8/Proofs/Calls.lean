import Chip8.Proofs.Invariant
import Mathlib.Data.List.Infix

/-!
# Calls and returns

A program may call, return, jump out of a subroutine and change itself as it likes.  Still, once it
has called, the part of the stack that was there before is out of its reach until the depth comes
back to what it was, and then it is a return that comes back, to the word behind the call.

* `CallStack.Over base ret c`   `c` is `base` with the address `ret` on it, and maybe more;
* `act_stack_cases`             what an action can do to the stack;
* `call_return_match`           the main statement.
-/

namespace Chip8

namespace CallStack

structure Over (base : CallStack) (ret : UInt16) (c : CallStack) : Prop where
  depth_lt : base.depth < c.depth
  kept : ∀ k (hk : k < 16), k < base.depth → c.slots[k] = base.slots[k]
  slot : ∀ hk : base.depth < 16, c.slots[base.depth] = ret

namespace Over
variable {base c : CallStack} {ret : UInt16}

theorem call (base : CallStack) (ret : UInt16) : Over base ret (base.append ret) where
  depth_lt := Nat.lt_succ_self _
  kept k hk hlt := by rw [getElem_append, if_neg (by omega)]
  slot hk := by rw [getElem_append, if_pos rfl]

theorem append (h : Over base ret c) (a : UInt16) : Over base ret (c.append a) where
  depth_lt := Nat.lt_succ_of_lt h.depth_lt
  kept k hk hlt := by
    have hd := h.depth_lt
    rw [getElem_append, if_neg (by omega)]
    exact h.kept k hk hlt
  slot hk := by
    have hd := h.depth_lt
    rw [getElem_append, if_neg (by omega)]
    exact h.slot hk

theorem dropTop (h : Over base ret c) (hd : base.depth < c.depth - 1) :
    Over base ret c.dropTop where
  depth_lt := hd
  kept k hk hlt := by
    rw [getElem_dropTop, if_neg (by omega)]
    exact h.kept k hk hlt
  slot hk := by
    rw [getElem_dropTop, if_neg (by omega)]
    exact h.slot hk

/-- The return that takes `ret` off leaves exactly the old stack; the slots out of use agree because
they are cleared on both sides. -/
theorem dropTop_eq (h : Over base ret c) (hb : base.Sound) (hc : c.Sound)
    (hd : c.depth = base.depth + 1) : c.top = ret ∧ c.dropTop = base := by
  have hle := hc.depth_le
  have hsub : c.depth - 1 = base.depth := by omega
  refine ⟨?_, ?_⟩
  · rw [top_eq c (by omega)]
    simp only [hsub]
    exact h.slot (by omega)
  · have hslots : c.dropTop.slots = base.slots := by
      refine Vector.ext fun k hk => ?_
      rw [getElem_dropTop, hsub]
      split
      · exact (hb.cleared k hk (by omega)).symm
      · by_cases hlt : k < base.depth
        · exact h.kept k hk hlt
        · rw [hb.cleared k hk (by omega)]
          exact hc.cleared k hk (by omega)
    have hdepth : c.dropTop.depth = base.depth := hsub
    cases base
    exact congr (congrArg CallStack.mk hslots) hdepth

end Over

end CallStack

namespace State
open Instruction
variable {s t : State}

theorem step_stack_cases {w : UInt16} (h : s.step = .ok (t, w)) :
    t.stack = s.stack ∨
    ((∃ a : Fin 4096, w.toNat = (call a).word) ∧ s.stack.depth < 16 ∧
      t.stack = s.stack.append s.skip.pc) ∨
    (w = 0x00EE ∧ 0 < s.stack.depth ∧ t.stack = s.stack.dropTop ∧ t.pc = s.stack.top) := by
  obtain ⟨-, he⟩ := step_eq_ok_iff.mp h
  obtain ⟨i, hw, hp⟩ := execute_eq_ok_iff.mp he
  have hw' : i.word = w.toNat := Int.ofNat.inj hw
  rcases perform_stack_cases hp with hc | ⟨a, rfl, hd, hc⟩ | ⟨rfl, hd, hc, hpc⟩
  · exact .inl hc
  · exact .inr (.inl ⟨⟨a, hw'.symm⟩, hd, hc⟩)
  · exact .inr (.inr ⟨UInt16.toNat_inj.mp hw'.symm, hd, hc, hpc⟩)

/-- An action leaves the stack alone, or it is a step that pushes or pops one address. -/
theorem act_stack_cases (s : State) (b : Action) :
    (s.act b).stack = s.stack ∨
    (∃ a, (s.act b).stack = s.stack.append a) ∨
    (b = .step ∧ s.step = .ok (s.act b, 0x00EE) ∧ (s.act b).stack = s.stack.dropTop ∧
      (s.act b).pc = s.stack.top) := by
  cases b with
  | step =>
    rcases act_step_cases s with ⟨w, hs⟩ | he
    · rcases step_stack_cases hs with hc | ⟨-, -, hc⟩ | ⟨rfl, -, hc, hpc⟩
      · exact .inl hc
      · exact .inr (.inl ⟨_, hc⟩)
      · exact .inr (.inr ⟨rfl, hs, hc, hpc⟩)
    · exact .inl (by rw [he])
  | tick => exact .inl rfl
  | snapshot keys => exact .inl rfl
  | load program =>
    obtain ⟨m, hm⟩ := act_load s program
    exact .inl (by rw [hm])

variable {base : CallStack} {ret : UInt16}

theorem over_act (h : base.Over ret s.stack) {b : Action}
    (hd : base.depth < (s.act b).stack.depth) : base.Over ret (s.act b).stack := by
  rcases act_stack_cases s b with hc | ⟨a, hc⟩ | ⟨-, -, hc, -⟩
  · rw [hc]
    exact h
  · rw [hc]
    exact h.append a
  · rw [hc] at hd ⊢
    exact h.dropTop hd

/-- As long as the depth stays above the old one, the old stack stays under the new one. -/
theorem over_after (h : base.Over ret s.stack) {as : List Action}
    (hd : ∀ p, p <+: as → base.depth < (s.after p).stack.depth) :
    base.Over ret (s.after as).stack := by
  induction as generalizing s with
  | nil => exact h
  | cons b as ih =>
    rw [after_cons]
    refine ih (over_act h (hd [b] ?_)) fun p hp => hd (b :: p) ?_
    · exact List.cons_prefix_cons.mpr ⟨rfl, List.nil_prefix⟩
    · exact List.cons_prefix_cons.mpr ⟨rfl, hp⟩

theorem over_return (h : base.Over ret s.stack) (hb : base.Sound) (hs : s.Sound) {b : Action}
    (hd : (s.act b).stack.depth ≤ base.depth) :
    b = .step ∧ s.step = .ok (s.act b, 0x00EE) ∧ (s.act b).pc = ret ∧ (s.act b).stack = base := by
  have hlt := h.depth_lt
  rcases act_stack_cases s b with hc | ⟨a, hc⟩ | ⟨hb', hstep, hc, hpc⟩
  · rw [hc] at hd
    omega
  · rw [hc] at hd
    have hd' : s.stack.depth + 1 ≤ base.depth := hd
    omega
  · rw [hc] at hd
    have hd' : s.stack.depth - 1 ≤ base.depth := hd
    obtain ⟨htop, hdrop⟩ := h.dropTop_eq hb hs.stack (by omega)
    exact ⟨hb', hstep, by rw [hpc, htop], by rw [hc, hdrop]⟩

/-- A call with room on the stack succeeds. -/
theorem step_call {w : UInt16} {a : Fin 4096} (hf : s.fetch = .ok w)
    (hw : w.toNat = (call a).word) (hd : s.stack.depth < 16) :
    s.step = .ok ({ s with stack := s.stack.append s.skip.pc, pc := UInt16.ofNat a }, w) := by
  refine step_eq_ok_iff.mpr ⟨hf, execute_eq_ok_iff.mpr ⟨call a, by rw [hw], ?_⟩⟩
  rw [perform_call, if_neg (by show ¬ 16 ≤ s.stack.depth; omega)]
  rfl

/-- **Calls match returns.**  However a run goes on after a call, the stack below stays as it is until the
depth comes back to what it was.  Then it is a return that brings it back, to the word behind the call
and to the very same stack. -/
theorem call_return_match (hr : s.Reachable) (hd : s.stack.depth < 16) {w : UInt16}
    (hf : s.fetch = .ok w) {a : Fin 4096} (hw : w.toNat = (call a).word) :
    s.step = .ok (s.act .step, w) ∧ (s.act .step).stack.depth = s.stack.depth + 1 ∧
    ∀ as : List Action,
      (∀ p, p <+: as → s.stack.depth < ((s.act .step).after p).stack.depth) →
      let t := (s.act .step).after as
      (∀ k : Fin 16, k.val < s.stack.depth → t.stack.slots[k] = s.stack.slots[k]) ∧
      t.stack.slots[s.stack.depth].toNat = s.pc.toNat + 2 ∧
      ∀ b : Action, (t.act b).stack.depth ≤ s.stack.depth →
        b = .step ∧ t.step = .ok (t.act b, 0x00EE) ∧ (t.act b).pc.toNat = s.pc.toNat + 2 ∧
          (t.act b).stack = s.stack := by
  have hstep := step_call hf hw hd
  have hact := act_step_of_ok hstep
  have hs := hr.sound
  have hpc := hs.pc_le
  have hskip : s.skip.pc.toNat = s.pc.toNat + 2 := skip_toNat (by omega)
  refine ⟨by rw [hact, hstep], by rw [hact]; rfl, fun as habove => ?_⟩
  have ht : ((s.act .step).after as).Sound := (hr.after (.step :: as)).sound
  have hover : s.stack.Over s.skip.pc ((s.act .step).after as).stack := by
    refine over_after ?_ habove
    rw [hact]
    exact .call _ _
  refine ⟨fun k => hover.kept k k.2, by rw [hover.slot hd, hskip], fun b hb => ?_⟩
  obtain ⟨hb', hret, hpc', hstack⟩ := over_return hover hs.stack ht hb
  exact ⟨hb', hret, by rw [hpc', hskip], hstack⟩

/-- A subroutine at `206` that calls another one, with a tick in between. -/
theorem call_return_match_nested :
    let program := [0x22, 0x06, 0x12, 0x02, 0x00, 0x00, 0x22, 0x0A, 0x00, 0xEE, 0x00, 0xEE]
    let s := (initial ⟨0, 0⟩ false).after [.load program]
    let as : List Action := [.step, .tick, .step]
    (s.Reachable ∧ s.stack.depth < 16 ∧ s.fetch = .ok 0x2206 ∧
      ∀ p, p <+: as → s.stack.depth < ((s.act .step).after p).stack.depth) ∧
    let u := ((s.act .step).after as).act .step
    u.pc.toNat = 0x202 ∧ u.stack = s.stack := by
  intro program s as
  have hr : s.Reachable := (reachable_initial ⟨0, 0⟩ false).after _
  have hd : s.stack.depth < 16 := by decide +kernel
  have hf : s.fetch = .ok 0x2206 := by decide +kernel
  have habove : ∀ p, p <+: as → s.stack.depth < ((s.act .step).after p).stack.depth := by
    have h : ∀ p ∈ as.inits, s.stack.depth < ((s.act .step).after p).stack.depth := by
      decide +kernel
    exact fun p hp => h p ((List.mem_inits p as).mpr hp)
  refine ⟨⟨hr, hd, hf, habove⟩, ?_⟩
  have hu : (((s.act .step).after as).act .step).stack.depth ≤ s.stack.depth := by decide +kernel
  have hpc : s.pc.toNat = 0x200 := by decide +kernel
  have hw : (0x2206 : UInt16).toNat = (call 0x206).word := by decide
  obtain ⟨-, -, hmatch⟩ := call_return_match hr hd hf hw
  obtain ⟨-, -, hret⟩ := hmatch as habove
  obtain ⟨-, -, hback, hstack⟩ := hret .step hu
  exact ⟨by rw [hback, hpc], hstack⟩

end State

end Chip8
