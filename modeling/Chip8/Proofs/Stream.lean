import Chip8.Proofs.Frame
import Chip8.Proofs.Runs

/-!
# The random stream of a run

Every draw splits the random key in two: one half to go on with, one to take the byte from.  So the
key of a run says how many draws there were, and nothing else about the run.

* `RandomKey.stream k n`, `RandomKey.subkey k n`   the key after `n` draws, and the key of draw `n`;
* `State.draw? s a`     register and mask of the draw that the action `a` makes, if it makes one;
* `State.draws s as`    the number of draws that some actions make;
* `act_rng`             what one action does to the key;
* `random_stream`       the main statement.
-/

namespace Chip8

namespace RandomKey

/-- The key after `n` draws. -/
def stream (k : RandomKey) : Nat → RandomKey
  | 0 => k
  | n + 1 => (k.stream n).split.1

/-- The key from which draw `n` takes its byte, the first one being draw `0`. -/
def subkey (k : RandomKey) (n : Nat) : RandomKey := (k.stream n).split.2

theorem stream_succ (k : RandomKey) (n : Nat) : k.stream (n + 1) = (k.stream n).split.1 := rfl

theorem stream_add (k : RandomKey) (m n : Nat) : k.stream (m + n) = (k.stream m).stream n := by
  induction n with
  | zero => rfl
  | succ n ih => rw [Nat.add_succ, stream_succ, stream_succ, ih]

end RandomKey

def Instruction.draw? : Instruction → Option (Fin 16 × UInt8)
  | random x mask => some (x, mask)
  | _ => none

/-- Register and mask of a random instruction. -/
def Word.draw? (w : UInt16) : Option (Fin 16 × UInt8) :=
  (Instruction.ofWord? w).bind Instruction.draw?

theorem Word.draw?_eq_some_iff {w : UInt16} {x : Fin 16} {mask : UInt8} :
    draw? w = some (x, mask) ↔ w.toNat = (Instruction.random x mask).word := by
  rw [draw?, Option.bind_eq_some_iff]
  constructor
  · rintro ⟨i, hi, hd⟩
    cases i with
    | random y m =>
      cases hd
      exact (Instruction.ofWord?_eq_some_iff.mp hi).symm
    | _ => cases hd
  · intro h
    exact ⟨_, Instruction.ofWord?_eq_some_iff.mpr h.symm, rfl⟩

namespace State
open Instruction
variable {s t : State} {x : Fin 16} {mask : UInt8} {w : UInt16}

def draw? (s : State) : Action → Option (Fin 16 × UInt8)
  | .step => s.fetch.toOption.bind Word.draw?
  | _ => none

def draws (s : State) : List Action → Nat
  | [] => 0
  | a :: as => (if (s.draw? a).isSome then 1 else 0) + (s.act a).draws as

theorem draws_nil (s : State) : s.draws [] = 0 := rfl
theorem draws_cons (s : State) (a : Action) (as : List Action) :
    s.draws (a :: as) = (if (s.draw? a).isSome then 1 else 0) + (s.act a).draws as := rfl

theorem draws_append (s : State) (as bs : List Action) :
    s.draws (as ++ bs) = s.draws as + (s.after as).draws bs := by
  induction as generalizing s with
  | nil => rw [List.nil_append, draws_nil, Nat.zero_add]; rfl
  | cons a as ih => rw [List.cons_append, draws_cons, draws_cons, ih, after_cons, Nat.add_assoc]

/-! ### One step -/

theorem fetch_of_step (h : s.step = .ok (t, w)) : s.fetch = .ok w :=
  (step_eq_ok_iff.mp h).1

/-- A random instruction that is fetched is executed. -/
theorem step_random (hf : s.fetch = .ok w) (hw : w.toNat = (random x mask).word) :
    s.step = .ok ({ s.skip.setV x (s.rng.split.2.byte &&& mask) with rng := s.rng.split.1 }, w) :=
  step_eq_ok_iff.mpr ⟨hf, execute_eq_ok_iff.mpr ⟨random x mask, by rw [hw], rfl⟩⟩

theorem draw?_of_fetch (hf : s.fetch = .ok w) : s.draw? .step = Word.draw? w := by
  show s.fetch.toOption.bind Word.draw? = _
  rw [hf]
  rfl

/-- An action draws exactly if it is a step that executes a random instruction. -/
theorem draw?_eq_some_iff {a : Action} : s.draw? a = some (x, mask) ↔
    a = .step ∧ ∃ t w, s.step = .ok (t, w) ∧ w.toNat = (random x mask).word := by
  constructor
  · intro h
    cases a with
    | step =>
      cases hf : s.fetch with
      | error f =>
        rw [draw?, hf] at h
        cases h
      | ok w =>
        rw [draw?_of_fetch hf, Word.draw?_eq_some_iff] at h
        exact ⟨rfl, _, w, step_random hf h, h⟩
    | _ => cases h
  · rintro ⟨rfl, t, w, hs, hw⟩
    rw [draw?_of_fetch (fetch_of_step hs), Word.draw?_eq_some_iff]
    exact hw

/-- A draw takes its byte from one half of the key and leaves the other one.  Any other word leaves
the key alone. -/
theorem rng_of_step (hs : s.step = .ok (t, w)) :
    (Word.draw? w = none ∧ t.rng = s.rng) ∨
    ∃ x mask, Word.draw? w = some (x, mask) ∧ t.rng = s.rng.split.1 ∧
      t.v.get x = s.rng.split.2.byte &&& mask := by
  cases hd : Word.draw? w with
  | some d =>
    obtain ⟨x, mask⟩ := d
    have ht := (step_random (fetch_of_step hs) (Word.draw?_eq_some_iff.mp hd)).symm.trans hs
    cases ht
    exact .inr ⟨x, mask, rfl, rfl, getV_setV_self _ x _⟩
  | none =>
    refine .inl ⟨rfl, ?_⟩
    obtain ⟨-, he⟩ := step_eq_ok_iff.mp hs
    obtain ⟨i, hi, hp⟩ := execute_eq_ok_iff.mp he
    refine (perform_frame hp).rng ?_
    cases i with
    | random x mask =>
      have hsome := Word.draw?_eq_some_iff.mpr (Int.ofNat.inj hi).symm
      rw [hd] at hsome
      cases hsome
    | _ => exact id

/-! ### One action, and a run of them -/

/-- The same for an action. -/
theorem act_rng (s : State) (a : Action) :
    (s.draw? a = none ∧ (s.act a).rng = s.rng) ∨
    ∃ x mask, s.draw? a = some (x, mask) ∧ (s.act a).rng = s.rng.split.1 ∧
      (s.act a).v.get x = s.rng.split.2.byte &&& mask := by
  cases a with
  | step =>
    cases hs : s.step with
    | ok r =>
      obtain ⟨t, w⟩ := r
      rw [act_step_of_ok hs, draw?_of_fetch (fetch_of_step hs)]
      exact rng_of_step hs
    | error f =>
      have hd : s.draw? .step = none := by
        cases hd : s.draw? .step with
        | none => rfl
        | some d =>
          obtain ⟨-, t, w, hok, -⟩ := draw?_eq_some_iff.mp hd
          rw [hs] at hok
          cases hok
      exact .inl ⟨hd, by rw [act, hs]⟩
  | tick => exact .inl ⟨rfl, rfl⟩
  | snapshot keys => exact .inl ⟨rfl, rfl⟩
  | load program =>
    obtain ⟨m, hm⟩ := act_load s program
    exact .inl ⟨rfl, by rw [hm]⟩

/-- After a run, the key has moved on by one for each draw. -/
theorem after_rng (s : State) (as : List Action) : (s.after as).rng = s.rng.stream (s.draws as) := by
  induction as generalizing s with
  | nil => rfl
  | cons a as ih =>
    rw [after_cons, ih, draws_cons, RandomKey.stream_add]
    obtain ⟨hd, hrng⟩ | ⟨x, mask, hd, hrng, -⟩ := act_rng s a
    · rw [hd, hrng]
      rfl
    · rw [hd, hrng]
      rfl

/-- **The random stream of a run.**  Its draw number `n` takes the byte of `k.subkey n` and leaves the key
`k.stream (n + 1)`, and nothing else touches the key. -/
theorem random_stream (k : RandomKey) (legacy : Bool) (as : List Action) :
    let s := (initial k legacy).after as
    let n := (initial k legacy).draws as
    s.rng = k.stream n ∧
    (∀ x mask w, s.fetch = .ok w → w.toNat = (random x mask).word →
      s.step = .ok (s.act .step, w) ∧
      (s.act .step).v.get x = (k.subkey n).byte &&& mask ∧
      (s.act .step).rng = k.stream (n + 1) ∧
      (initial k legacy).draws (as ++ [.step]) = n + 1) ∧
    ∀ a, (∀ x mask t w, a = .step → s.step = .ok (t, w) → w.toNat ≠ (random x mask).word) →
      (s.act a).rng = k.stream n ∧ (initial k legacy).draws (as ++ [a]) = n := by
  intro s n
  have hrng : s.rng = k.stream n := after_rng (initial k legacy) as
  refine ⟨hrng, ?_, ?_⟩
  · intro x mask w hf hw
    have hs := step_random hf hw
    have hd : s.draw? .step = some (x, mask) := draw?_eq_some_iff.mpr ⟨rfl, _, w, hs, hw⟩
    have hact := act_step_of_ok hs
    obtain ⟨hnone, -⟩ | ⟨y, m, hd', hkey, hbyte⟩ := act_rng s .step
    · rw [hd] at hnone
      cases hnone
    · rw [hd] at hd'
      cases hd'
      refine ⟨by rw [hact, hs], ?_, ?_, ?_⟩
      · rw [hbyte, hrng, RandomKey.subkey]
      · rw [hkey, hrng, RandomKey.stream_succ]
      · rw [draws_append, draws_cons, draws_nil, hd]
        rfl
  · intro a ha
    obtain ⟨hnone, hkey⟩ | ⟨x, mask, hd, -⟩ := act_rng s a
    · refine ⟨by rw [hkey, hrng], ?_⟩
      rw [draws_append, draws_cons, draws_nil, hnone]
      rfl
    · obtain ⟨rfl, t, w, hs, hw⟩ := draw?_eq_some_iff.mp hd
      exact absurd hw (ha x mask t w rfl hs)

/-- Between the two draws of this program there are a word that faults, a load over it, and a key wait
that is tried twice. -/
theorem random_stream_second :
    let k : RandomKey := ⟨0, 7⟩
    let program := [0xC0, 0xFF, 0xF2, 0x0A, 0xC1, 0x0F]
    let as : List Action := [.load [0xC0, 0xFF, 0x00, 0x00], .step, .step, .load program, .step,
      .tick, .snapshot (Keys.none.set 3 true), .step]
    let s := (initial k false).after as
    (initial k false).draws as = 1 ∧ s.fetch = .ok 0xC10F ∧
      (s.act .step).v.get 1 = (k.subkey 1).byte &&& 0x0F ∧ (s.act .step).rng = k.stream 2 := by
  intro k program as s
  have hn : (initial k false).draws as = 1 := by decide +kernel
  have hf : s.fetch = .ok 0xC10F := by decide +kernel
  obtain ⟨-, hdraw, -⟩ := random_stream k false as
  obtain ⟨-, hbyte, hkey, -⟩ := hdraw 1 0x0F 0xC10F hf rfl
  rw [hn] at hbyte hkey
  exact ⟨hn, hf, hbyte, hkey⟩

end State

end Chip8
