import Mathlib.Data.List.Basic

/-!
# The last member of a kind

`IsLast P a l` says that `a` is the last member of the list of which `P` holds.  A list that grows at its
end has a new last member of the kind, or keeps the one it had.
-/

namespace Chip8

def IsLast {α : Type} (P : α → Prop) (a : α) (l : List α) : Prop :=
  ∃ pre post, l = pre ++ a :: post ∧ P a ∧ ∀ b ∈ post, ¬ P b

namespace IsLast
variable {α : Type} {P : α → Prop} {a b : α} {l : List α}

theorem of_nil : ¬ IsLast P a [] := by
  rintro ⟨pre, post, h, -⟩
  exact List.append_ne_nil_of_right_ne_nil pre (List.cons_ne_nil a post) h.symm

/-- A new member of the kind is the last one. -/
theorem concat_iff (h : P b) : IsLast P a (l ++ [b]) ↔ a = b := by
  constructor
  · rintro ⟨pre, post, heq, -, hpost⟩
    obtain rfl | ⟨post', c, rfl⟩ := List.eq_nil_or_concat' post
    · exact (List.append_singleton_inj.mp heq).2.symm
    · rw [← List.cons_append, ← List.append_assoc] at heq
      obtain rfl : b = c := (List.append_singleton_inj.mp heq).2
      exact absurd h (hpost b (List.mem_append_right _ List.mem_cons_self))
  · rintro rfl
    exact ⟨l, [], rfl, h, nofun⟩

/-- A member of another kind changes nothing. -/
theorem concat_iff_of_not (h : ¬ P b) : IsLast P a (l ++ [b]) ↔ IsLast P a l := by
  constructor
  · rintro ⟨pre, post, heq, ha, hpost⟩
    obtain rfl | ⟨post', c, rfl⟩ := List.eq_nil_or_concat' post
    · obtain rfl : b = a := (List.append_singleton_inj.mp heq).2
      exact absurd ha h
    · rw [← List.cons_append, ← List.append_assoc] at heq
      exact ⟨pre, post', (List.append_singleton_inj.mp heq).1, ha,
        fun d hd => hpost d (List.mem_append_left _ hd)⟩
  · rintro ⟨pre, post, rfl, ha, hpost⟩
    refine ⟨pre, post ++ [b], by simp, ha, fun d hd => ?_⟩
    obtain hd | hd := List.mem_append.mp hd
    · exact hpost d hd
    · rw [List.mem_singleton.mp hd]
      exact h

end IsLast

end Chip8
