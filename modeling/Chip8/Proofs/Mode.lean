import Chip8.Proofs.Arithmetic
import Chip8.Proofs.Runs

/-!
# The reach of the legacy mode

The mode chooses the operand of the shifts and moves the index on after registers were saved or loaded.
Nothing else depends on it: two machines that differ in their modes only do the same for as long as
they save and load no registers, and whatever they shift holds the same byte in `VX` and in `VY`.

* `SameButMode s t`        the two states differ at most in the mode, `s.inMode b` is `s` in mode `b`;
* `Instruction.readsMode`  the instructions that look at the mode;
* `Instruction.modeFree`   those to which it makes no difference at a given state;
* `State.modeFree`         the runs of which every word that is executed is such;
* `State.report`           the words that a run executes and the faults it meets, in order;
* `execute_inMode`         the mode goes through the execution of a word unnoticed;
* `mode_confined`          the main statement.
-/

namespace Chip8

/-- The operations whose operand is chosen by the mode. -/
def Arith.shifts : Arith → Bool
  | .shiftRight | .shiftLeft => true
  | .set | .or | .and | .xor | .add | .sub | .subFrom => false

namespace Instruction

/-- The mode can make a difference.  A register that is shifted into itself is the only operand there
is. -/
def readsMode : Instruction → Bool
  | arith op x y => op.shifts && x != y
  | saveRegisters _ | loadRegisters _ => true
  | _ => false

/-- The mode makes no difference at this state. -/
def modeFree (s : State) : Instruction → Bool
  | arith op x y => !op.shifts || s.v.get x == s.v.get y
  | saveRegisters _ | loadRegisters _ => false
  | _ => true

theorem modeFree_of_not_readsMode {i : Instruction} (h : i.readsMode = false) (s : State) :
    i.modeFree s = true := by
  cases i with
  | arith op x y =>
    rw [readsMode, Bool.and_eq_false_iff] at h
    rw [modeFree, Bool.or_eq_true]
    rcases h with hop | hxy
    · rw [hop]
      exact .inl rfl
    · obtain rfl : x = y := bne_eq_false_iff_eq.mp hxy
      exact .inr (beq_self_eq_true _)
  | saveRegisters x | loadRegisters x => cases h
  | _ => rfl

end Instruction

namespace State
open Instruction
variable {s t : State} {i : Instruction}

/-- The two states differ at most in the mode. -/
structure SameButMode (s t : State) : Prop where
  rng : t.rng = s.rng
  memory : t.memory = s.memory
  pc : t.pc = s.pc
  display : t.display = s.display
  stack : t.stack = s.stack
  delay : t.delay = s.delay
  sound : t.sound = s.sound
  keys : t.keys = s.keys
  v : t.v = s.v
  index : t.index = s.index

def inMode (s : State) (b : Bool) : State := { s with legacy := b }

theorem sameButMode_inMode (s : State) (b : Bool) : SameButMode s (s.inMode b) :=
  ⟨rfl, rfl, rfl, rfl, rfl, rfl, rfl, rfl, rfl, rfl⟩

theorem SameButMode.eq_inMode (h : SameButMode s t) : t = s.inMode t.legacy := by
  obtain ⟨h1, h2, h3, h4, h5, h6, h7, h8, h9, h10⟩ := h
  unfold inMode
  rw [← h1, ← h2, ← h3, ← h4, ← h5, ← h6, ← h7, ← h8, ← h9, ← h10]

/-! ### Instructions -/

theorem inMode_skipIf (s : State) (b c : Bool) : (s.inMode b).skipIf c = (s.skipIf c).inMode b := by
  cases c <;> rfl

/-- What a shift shifts. -/
def shiftSource (s : State) (x y : Fin 16) : UInt8 := if s.legacy then s.v.get y else s.v.get x

theorem arith_shiftRight (s : State) (x y : Fin 16) : s.arith .shiftRight x y =
    (s.setV x (s.shiftSource x y >>> 1)).setV flag (s.shiftSource x y &&& 1) := rfl

theorem arith_shiftLeft (s : State) (x y : Fin 16) : s.arith .shiftLeft x y =
    (s.setV x (s.shiftSource x y <<< 1)).setV flag (s.shiftSource x y >>> 7) := rfl

theorem inMode_shiftSource (b : Bool) {x y : Fin 16} (h : s.v.get x = s.v.get y) :
    (s.inMode b).shiftSource x y = s.shiftSource x y := by
  unfold shiftSource
  show (if b then s.v.get y else s.v.get x) = _
  rw [h, ite_self, ite_self]

theorem inMode_arith (b : Bool) {op : Arith} {x y : Fin 16}
    (h : (Instruction.arith op x y).modeFree s = true) :
    (s.inMode b).arith op x y = (s.arith op x y).inMode b := by
  cases op with
  | set | or | and | xor | add | sub | subFrom => rfl
  | shiftRight =>
    rw [arith_shiftRight, arith_shiftRight, inMode_shiftSource b (eq_of_beq h)]
    rfl
  | shiftLeft =>
    rw [arith_shiftLeft, arith_shiftLeft, inMode_shiftSource b (eq_of_beq h)]
    rfl

/-- The mode has no say in a refusal, and none in what a `modeFree` instruction does. -/
theorem perform_inMode (b : Bool) (h : ∀ t, s.perform i = .ok t → i.modeFree s = true) :
    (s.inMode b).perform i = (s.perform i).map (inMode · b) := by
  cases i with
  | «return» =>
    rw [perform_return, perform_return, apply_ite (Except.map _)]
    rfl
  | call a =>
    rw [perform_call, perform_call, apply_ite (Except.map _)]
    rfl
  | skipIfEqual x k | skipUnlessEqual x k | skipIfSame x y | skipUnlessSame x y =>
    exact congrArg Except.ok (inMode_skipIf s b _)
  | arith op x y => exact congrArg Except.ok (inMode_arith b (h _ rfl))
  | draw x y n =>
    rw [perform_draw, perform_draw, apply_ite (Except.map _), apply_ite (Except.map _)]
    rfl
  | skipIfKey x =>
    rw [perform_skipIfKey, perform_skipIfKey, apply_dite (Except.map _)]
    refine dite_congr rfl (fun hk => ?_) fun _ => rfl
    exact congrArg Except.ok (inMode_skipIf s b _)
  | skipUnlessKey x =>
    rw [perform_skipUnlessKey, perform_skipUnlessKey, apply_dite (Except.map _)]
    refine dite_congr rfl (fun hk => ?_) fun _ => rfl
    exact congrArg Except.ok (inMode_skipIf s b _)
  | awaitKey x =>
    have hkeys : (s.inMode b).keys.lowest? = s.keys.lowest? := rfl
    rw [perform, perform, hkeys]
    cases s.keys.lowest? <;> rfl
  | glyph x =>
    rw [perform_glyph, perform_glyph, apply_ite (Except.map _)]
    rfl
  | digits x =>
    rw [perform_digits, perform_digits, apply_ite (Except.map _)]
    rfl
  | saveRegisters x =>
    -- refused in either mode, or `h` does not let it succeed; the same for the load below
    by_cases hb : 4096 < s.index.toNat + (x.val + 1)
    · rw [perform_saveRegisters, perform_saveRegisters, if_pos hb]
      exact if_pos hb
    · cases h _ ((perform_saveRegisters s x).trans (if_neg hb))
  | loadRegisters x =>
    by_cases hb : 4096 < s.index.toNat + (x.val + 1)
    · rw [perform_loadRegisters, perform_loadRegisters, if_pos hb]
      exact if_pos hb
    · cases h _ ((perform_loadRegisters s x).trans (if_neg hb))
  | _ => rfl

/-- The mode goes through an execution unnoticed, unless it succeeds and the mode decides what it
does. -/
theorem execute_inMode (b : Bool) {w : Int}
    (h : ∀ i : Instruction, (i.word : Int) = w → ∀ t, s.execute w = .ok t → i.modeFree s = true) :
    (s.inMode b).execute w = (s.execute w).map (inMode · b) := by
  cases hd : decode w with
  | error c =>
    rw [execute, execute, hd]
    rfl
  | ok i =>
    have hi : (i.word : Int) = w := decode_eq_ok_iff.mp hd
    have hp : (s.skip.inMode b).perform i = (s.skip.perform i).map (inMode · b) :=
      perform_inMode b fun t ht => h i hi t (execute_eq_ok_iff.mpr ⟨i, hi, ht⟩)
    have hskip : (s.inMode b).skip = s.skip.inMode b := rfl
    rw [execute_of_decode hd, execute_of_decode hd, hskip, hp]
    cases s.skip.perform i with
    | ok t => rfl
    | error c => rfl

/-! ### Runs -/

/-- The instruction that an action executes. -/
def executed? (s : State) : Action → Option Instruction
  | .step =>
    match s.step with
    | .ok (_, w) => ofWord? w
    | .error _ => none
  | _ => none

def modeFree (s : State) : List Action → Bool
  | [] => true
  | a :: as => (s.executed? a).all (·.modeFree s) && (s.act a).modeFree as

/-- The word that a step executed, or its fault.  The other actions have nothing to report. -/
def reported? (s : State) : Action → Option (Except Fault UInt16)
  | .step => some (s.step.map Prod.snd)
  | _ => none

def report (s : State) : List Action → List (Except Fault UInt16)
  | [] => []
  | a :: as => (s.reported? a).toList ++ (s.act a).report as

theorem fetch_inMode (s : State) (b : Bool) : (s.inMode b).fetch = s.fetch := rfl

theorem step_inMode (b : Bool) (h : (s.executed? .step).all (·.modeFree s) = true) :
    (s.inMode b).step = s.step.map fun r => (r.1.inMode b, r.2) := by
  cases hf : s.fetch with
  | error f =>
    rw [step, step, fetch_inMode, hf]
    rfl
  | ok w =>
    have he : (s.inMode b).execute w.toNat = (s.execute w.toNat).map (inMode · b) := by
      refine execute_inMode b fun i hi t ht => ?_
      have hs : s.step = .ok (t, w) := step_eq_ok_iff.mpr ⟨hf, ht⟩
      have hw : ofWord? w = some i := ofWord?_eq_some_iff.mpr (Int.ofNat.inj hi)
      rw [executed?, hs] at h
      dsimp only at h
      rw [hw] at h
      exact h
    rw [step_of_fetch hf, step_of_fetch ((fetch_inMode s b).trans hf), he]
    cases s.execute w.toNat with
    | ok t => rfl
    | error f => rfl

theorem reported?_inMode (b : Bool) {a : Action} (h : (s.executed? a).all (·.modeFree s) = true) :
    (s.inMode b).reported? a = s.reported? a := by
  cases a with
  | step =>
    rw [reported?, reported?, step_inMode b h]
    cases s.step with
    | ok r => rfl
    | error f => rfl
  | tick | snapshot keys | load program => rfl

theorem act_inMode (b : Bool) {a : Action} (h : (s.executed? a).all (·.modeFree s) = true) :
    (s.inMode b).act a = (s.act a).inMode b := by
  cases a with
  | step =>
    rw [act, act, step_inMode b h]
    cases s.step with
    | ok r => rfl
    | error f => rfl
  | tick => rfl
  | snapshot keys => rfl
  | load program =>
    have hb : (s.inMode b).memory.load program = s.memory.load program := rfl
    cases hm : s.memory.load program with
    | ok m =>
      rw [act, act, load, load, hb, hm]
      rfl
    | error c =>
      rw [act, act, load, load, hb, hm]
      rfl

theorem modeFree_cons (s : State) (a : Action) (as : List Action) :
    s.modeFree (a :: as) = ((s.executed? a).all (·.modeFree s) && (s.act a).modeFree as) := rfl

theorem report_cons (s : State) (a : Action) (as : List Action) :
    s.report (a :: as) = (s.reported? a).toList ++ (s.act a).report as := rfl

theorem report_inMode (b : Bool) {as : List Action} (h : s.modeFree as = true) :
    (s.inMode b).report as = s.report as := by
  induction as generalizing s with
  | nil => rfl
  | cons a as ih =>
    rw [modeFree_cons, Bool.and_eq_true] at h
    obtain ⟨ha, has⟩ := h
    rw [report_cons, report_cons, reported?_inMode b ha, act_inMode b ha, ih has]

theorem after_inMode (b : Bool) {as : List Action} (h : s.modeFree as = true) :
    (s.inMode b).after as = (s.after as).inMode b := by
  induction as generalizing s with
  | nil => rfl
  | cons a as ih =>
    rw [modeFree_cons, Bool.and_eq_true] at h
    obtain ⟨ha, has⟩ := h
    rw [after_cons, after_cons, act_inMode b ha, ih has]

theorem modeFree_of_append {as bs : List Action} (h : s.modeFree (as ++ bs) = true) :
    s.modeFree as = true := by
  induction as generalizing s with
  | nil => rfl
  | cons a as ih =>
    rw [List.cons_append, modeFree_cons, Bool.and_eq_true] at h
    obtain ⟨ha, has⟩ := h
    rw [modeFree_cons, ha, ih has]
    rfl

/-- No action changes the mode. -/
theorem act_legacy (s : State) (a : Action) : (s.act a).legacy = s.legacy := by
  cases a with
  | step =>
    rcases act_step_cases s with ⟨w, hs⟩ | hs
    · obtain ⟨i, -, -, hframe⟩ := execute_next_frame (step_eq_ok_iff.mp hs).2
      exact hframe.legacy
    · rw [hs]
  | tick | snapshot keys => rfl
  | load program =>
    obtain ⟨m, hm⟩ := act_load s program
    rw [hm]

theorem after_legacy (s : State) (as : List Action) : (s.after as).legacy = s.legacy :=
  after_induction (fun t a ht => (act_legacy t a).trans ht) rfl as

/-! ### The instructions that look at the mode -/

/-- The mode can be told from a register or from the index. -/
theorem execute_inMode_ne {b : Bool} {w : Int} {u : State} (hs : s.execute w = .ok t)
    (hb : (s.inMode b).execute w = .ok u)
    (h : u.v.get flag ≠ t.v.get flag ∨ u.index ≠ t.index) :
    (s.inMode b).execute w ≠ (s.execute w).map (inMode · b) := by
  rw [hs, hb]
  intro he
  obtain rfl : u = t.inMode b := Except.ok.inj he
  rcases h with h | h
  · exact h rfl
  · exact h rfl

theorem index_moveIndex_ne (s : State) (x : Fin 16) :
    ((s.inMode true).moveIndex (x.val + 1)).index ≠ ((s.inMode false).moveIndex (x.val + 1)).index := by
  show s.index + UInt16.ofNat (x.val + 1) ≠ s.index
  intro h
  have hn := congrArg UInt16.toNat h
  rw [UInt16.toNat_add, UInt16.toNat_ofNat'] at hn
  have := s.index.toNat_lt
  omega

/-- An instruction that looks at the mode has a state where it makes a difference. -/
theorem exists_execute_inMode_ne (h : i.readsMode = true) : ∃ (s : State) (b : Bool),
    (s.inMode b).execute i.word ≠ (s.execute i.word).map (inMode · b) := by
  have run {s t : State} (hp : s.skip.perform i = .ok t) : s.execute i.word = .ok t :=
    execute_eq_ok_iff.mpr ⟨i, rfl, hp⟩
  obtain ⟨s, hv, hindex⟩ : ∃ s : State, (∀ k, s.v.get k = 0) ∧ s.index = 0 :=
    ⟨initial ⟨0, 0⟩ false, by decide, rfl⟩
  have hbounds (x : Fin 16) : ¬ 4096 < s.index.toNat + (x.val + 1) := by
    rw [hindex]
    show ¬ 4096 < 0 + (x.val + 1)
    omega
  cases i with
  | arith op x y =>
    rw [readsMode, Bool.and_eq_true, bne_iff_ne] at h
    obtain ⟨hop, hxy⟩ := h
    -- either shift drops a bit of `0x81` in `VX`, and none of the zero in `VY`
    let t := (s.inMode false).setV x 0x81
    have hx : t.skip.shiftSource x y = 0x81 := getV_setV_self s x 0x81
    have hy : (t.inMode true).skip.shiftSource x y = 0 :=
      (getV_setV_of_ne s hxy.symm 0x81).trans (hv y)
    refine ⟨t, true, execute_inMode_ne (run rfl) (run rfl) (.inl ?_)⟩
    cases op with
    | set | or | and | xor | add | sub | subFrom => cases hop
    | shiftRight =>
      rw [arith_shiftRight, arith_shiftRight, getV_setV_self, getV_setV_self, hx, hy]
      decide
    | shiftLeft =>
      rw [arith_shiftLeft, arith_shiftLeft, getV_setV_self, getV_setV_self, hx, hy]
      decide
  | saveRegisters x =>
    have hok (b : Bool) := run ((perform_saveRegisters (s.inMode b).skip x).trans (if_neg (hbounds x)))
    refine ⟨s.inMode false, true, execute_inMode_ne (hok false) (hok true) (.inr ?_)⟩
    exact index_moveIndex_ne { s.skip with memory := _ } x
  | loadRegisters x =>
    have hok (b : Bool) := run ((perform_loadRegisters (s.inMode b).skip x).trans (if_neg (hbounds x)))
    refine ⟨s.inMode false, true, execute_inMode_ne (hok false) (hok true) (.inr ?_)⟩
    exact index_moveIndex_ne { s.skip with v := _ } x
  | _ => cases h

/-- **The reach of the mode.**  In a run that saves and loads no registers, and shifts only what is the same in
`VX` and in `VY`, the mode plays no part.  And nothing more can be asked for: each of these words depends
on the mode at some state, and no other word does at any. -/
theorem mode_confined :
    (∀ (s t : State) (as : List Action), SameButMode s t → s.modeFree as = true →
      t.report as = s.report as ∧
      ∀ pre, pre <+: as → SameButMode (s.after pre) (t.after pre) ∧
        (s.after pre).legacy = s.legacy ∧ (t.after pre).legacy = t.legacy) ∧
    ∀ w : Int, (∃ i : Instruction, i.readsMode = true ∧ (i.word : Int) = w) ↔
      ∃ (s : State) (b : Bool), (s.inMode b).execute w ≠ (s.execute w).map (inMode · b) := by
  refine ⟨fun s t as hst h => ?_, fun w => ⟨?_, ?_⟩⟩
  · rw [hst.eq_inMode]
    refine ⟨report_inMode _ h, ?_⟩
    rintro pre ⟨rest, rfl⟩
    rw [after_inMode _ (modeFree_of_append h)]
    exact ⟨sameButMode_inMode _ _, after_legacy s pre, rfl⟩
  · rintro ⟨i, hi, rfl⟩
    exact exists_execute_inMode_ne hi
  · rintro ⟨s, b, hne⟩
    by_contra hnone
    refine hne (execute_inMode b fun i hi t _ => modeFree_of_not_readsMode ?_ s)
    cases hr : i.readsMode with
    | false => rfl
    | true => exact absurd ⟨i, hr, hi⟩ hnone

/-- The two registers are the same when `V1` is shifted, `V3` is shifted into itself, and the return has
nowhere to go.  Between them there are a tick and a key. -/
theorem mode_confined_shifting :
    let program := [0x61, 0x85, 0x62, 0x85, 0x81, 0x26, 0xF3, 0x0A, 0x83, 0x3E, 0x00, 0xEE]
    let s := (initial ⟨0, 7⟩ false).act (.load program)
    let t := s.inMode true
    let as : List Action := [.step, .step, .step, .tick, .step, .snapshot (Keys.none.set 9 true),
      .step, .step, .step]
    SameButMode s t ∧ s.modeFree as = true ∧
      t.report as = [.ok 0x6185, .ok 0x6285, .ok 0x8126, .ok 0xF30A, .ok 0xF30A, .ok 0x833E,
        .error { cause := .stackUnderflow, instruction := some 0x00EE, pc := some 0x20A }] ∧
      SameButMode (s.after as) (t.after as) := by
  intro program s t as
  have hst : SameButMode s t := sameButMode_inMode s true
  have hfree : s.modeFree as = true := by decide +kernel
  have hreport : s.report as = [.ok 0x6185, .ok 0x6285, .ok 0x8126, .ok 0xF30A, .ok 0xF30A,
      .ok 0x833E,
      .error { cause := .stackUnderflow, instruction := some 0x00EE, pc := some 0x20A }] := by
    decide +kernel
  obtain ⟨hboth, hpre⟩ := mode_confined.1 s t as hst hfree
  exact ⟨hst, hfree, hboth.trans hreport, (hpre as List.prefix_rfl).1⟩

end State

end Chip8
