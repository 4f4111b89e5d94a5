import Chip8.Nested

/-!
# Literals by their shape

A literal whose shape is regular is taken apart by it: a list has as many members as the first dimension
says, and each of them has the shape that is left.

* `members_of_shape`, `shape_of_members`   a list by its members, and back; `shape_map` for a list of images;
* `shapeWithin_succ`                       a regular shape of a member is its shape as a literal of its own;
* `items_of_shape`, `flat_of_shape`        a literal that has one dimension is a list of items;
* `rows_of_shape`                          a literal of two dimensions has rows of one length.
-/

namespace Chip8.Nested
variable {α : Type} {room n : Nat} {dims : List Nat} {ms : List (Nested α)}

/-! ### Members -/

/-- If all the members agree on a shape, it is the shape of each of them. -/
theorem shapeAll_eq {s : Shape} (h : (shapeAll room s ms).ragged = false) :
    shapeAll room s ms = s ∧ ∀ m ∈ ms, shapeWithin room m = s := by
  induction ms generalizing s with
  | nil => exact ⟨by rw [shapeAll], nofun⟩
  | cons m ms ih =>
    rw [shapeAll] at h ⊢
    obtain ⟨hall, hmem⟩ := ih h
    have hmeet : (s.meet (shapeWithin room m)).ragged = false := hall ▸ h
    have hsame : s = shapeWithin room m := by
      generalize shapeWithin room m = t at hmeet
      obtain ⟨dims, ragged⟩ := s
      obtain ⟨dims', ragged'⟩ := t
      simp only [Shape.meet, Bool.or_eq_false_iff, bne_eq_false_iff_eq] at hmeet
      obtain ⟨⟨rfl, rfl⟩, rfl⟩ := hmeet
      rfl
    rw [← hsame, Shape.meet_self] at hall hmem ⊢
    refine ⟨hall, fun m' hm' => ?_⟩
    obtain rfl | hm' := List.mem_cons.mp hm'
    · exact hsame.symm
    · exact hmem m' hm'

theorem shapeAll_of_members {s : Shape} (h : ∀ m ∈ ms, shapeWithin room m = s) :
    shapeAll room s ms = s := by
  induction ms with
  | nil => rw [shapeAll]
  | cons m ms ih =>
    rw [shapeAll, h m List.mem_cons_self, Shape.meet_self]
    exact ih fun m' hm' => h m' (List.mem_cons_of_mem _ hm')

/-- A list has as many members as its first dimension says, and they have the others. -/
theorem members_of_shape (h : shapeWithin (room + 1) (list ms) = ⟨n :: dims, false⟩) :
    ms.length = n ∧ ∀ m ∈ ms, shapeWithin room m = ⟨dims, false⟩ := by
  cases ms with
  | nil =>
    rw [shapeWithin] at h
    cases h
    exact ⟨rfl, List.forall_mem_nil _⟩
  | cons m ms =>
    rw [shapeWithin] at h
    injection h with hdims hragged
    obtain ⟨hlength, hinner⟩ := List.cons_eq_cons.mp hdims
    obtain ⟨hall, hmem⟩ := shapeAll_eq hragged
    have hm : shapeWithin room m = ⟨dims, false⟩ := by
      rw [← hall]
      exact congr (congrArg Shape.mk hinner) hragged
    refine ⟨hlength, fun m' hm' => ?_⟩
    obtain rfl | hm' := List.mem_cons.mp hm'
    · exact hm
    · exact (hmem m' hm').trans hm

/-- A list without members has one dimension only. -/
theorem ne_nil_of_shape {d : Nat} (h : shapeWithin (room + 1) (list ms) = ⟨n :: d :: dims, false⟩) :
    ms ≠ [] := by
  rintro rfl
  rw [shapeWithin] at h
  cases h

/-- Of two dimensions or more only the last one can be zero. -/
theorem pos_of_shape {d : Nat} (h : shapeWithin (room + 1) (list ms) = ⟨n :: d :: dims, false⟩) :
    0 < n := by
  obtain ⟨hlength, -⟩ := members_of_shape h
  rw [← hlength]
  exact List.length_pos_iff.mpr (ne_nil_of_shape h)

theorem shape_of_members (hne : ms ≠ []) (h : ∀ m ∈ ms, shapeWithin room m = ⟨dims, false⟩) :
    shapeWithin (room + 1) (list ms) = ⟨ms.length :: dims, false⟩ := by
  cases ms with
  | nil => exact absurd rfl hne
  | cons m ms =>
    have hm : shapeWithin room m = ⟨dims, false⟩ := h m List.mem_cons_self
    have hall : shapeAll room (shapeWithin room m) ms = shapeWithin room m :=
      shapeAll_of_members fun m' hm' => (h m' (List.mem_cons_of_mem _ hm')).trans hm.symm
    rw [shapeWithin, hall, hm]
    rfl

theorem shape_map {β : Type} {f : β → Nested α} {l : List β} (hne : l ≠ [])
    (h : ∀ b ∈ l, shapeWithin room (f b) = ⟨dims, false⟩) :
    shapeWithin (room + 1) (list (l.map f)) = ⟨l.length :: dims, false⟩ := by
  have hmem : ∀ m ∈ l.map f, shapeWithin room m = ⟨dims, false⟩ := by
    intro m hm
    obtain ⟨b, hb, rfl⟩ := List.mem_map.mp hm
    exact h b hb
  rw [shape_of_members (mt List.map_eq_nil_iff.mp hne) hmem, List.length_map]

/-- Only a list has dimensions. -/
theorem exists_list_of_shape {m : Nested α} (h : shapeWithin room m = ⟨n :: dims, false⟩) :
    ∃ ms, list ms = m := by
  cases m with
  | item a =>
    rw [shapeWithin] at h
    cases h
  | list ms => exact ⟨ms, rfl⟩

/-- Only an item has no dimensions. -/
theorem exists_item_of_shape {m : Nested α} (h : shapeWithin (room + 1) m = ⟨[], false⟩) :
    ∃ a, item a = m := by
  cases m with
  | item a => exact ⟨a, rfl⟩
  | list ms =>
    cases ms with
    | nil =>
      rw [shapeWithin] at h
      cases h
    | cons m ms =>
      rw [shapeWithin] at h
      cases h

/-- A regular shape does not depend on the room that there is for more dimensions. -/
theorem shapeWithin_succ {m : Nested α} (h : shapeWithin room m = ⟨dims, false⟩) :
    shapeWithin (room + 1) m = ⟨dims, false⟩ := by
  induction dims generalizing room m with
  | nil =>
    cases m with
    | item a => rw [shapeWithin]
    | list ms =>
      cases room with
      | zero =>
        rw [shapeWithin] at h
        cases h
      | succ room =>
        obtain ⟨a, ha⟩ := exists_item_of_shape h
        cases ha
  | cons n dims ih =>
    obtain ⟨ms, rfl⟩ := exists_list_of_shape h
    cases room with
    | zero =>
      rw [shapeWithin] at h
      cases h
    | succ room =>
      obtain ⟨rfl, hmem⟩ := members_of_shape h
      by_cases hne : ms = []
      · subst hne
        rw [shapeWithin] at h ⊢
        exact h
      · exact shape_of_members hne fun m hm => ih (hmem m hm)

/-! ### One dimension and two -/

theorem exists_items (h : ∀ m ∈ ms, ∃ a, item a = m) : ∃ l : List α, ms = l.map item := by
  induction ms with
  | nil => exact ⟨[], rfl⟩
  | cons m ms ih =>
    obtain ⟨a, rfl⟩ := h m List.mem_cons_self
    obtain ⟨l, rfl⟩ := ih fun m' hm' => h m' (List.mem_cons_of_mem _ hm')
    exact ⟨a :: l, rfl⟩

/-- A list of one dimension is a list of items. -/
theorem items_of_shape (h : shapeWithin (room + 2) (list ms) = ⟨[n], false⟩) :
    ∃ l : List α, l.length = n ∧ ms = l.map item := by
  obtain ⟨hlength, hmem⟩ := members_of_shape h
  obtain ⟨l, rfl⟩ := exists_items fun m hm => exists_item_of_shape (hmem m hm)
  exact ⟨l, List.length_map item ▸ hlength, rfl⟩

theorem flat_of_shape (h : (list ms).shape = ⟨[n], false⟩) :
    ∃ l : List α, l.length = n ∧ ms = l.map item := items_of_shape h

theorem itemsAll_map_item (l : List α) : itemsAll (l.map item) = l := by
  induction l with
  | nil => rw [List.map_nil, itemsAll]
  | cons a l ih => rw [List.map_cons, itemsAll, items, ih, List.singleton_append]

theorem mem_items_of_mem_rows {m : Nested α} {row : List α} {a : α} (hrow : row ∈ m.rows)
    (ha : a ∈ row) : a ∈ m.items := by
  cases m with
  | item b =>
    rw [rows, List.mem_singleton] at hrow
    rw [items]
    exact hrow ▸ ha
  | list ms =>
    obtain ⟨m, hm, rfl⟩ := List.mem_map.mp hrow
    rw [items, itemsAll_eq]
    exact List.mem_flatMap.mpr ⟨m, hm, ha⟩

/-- A literal of two dimensions has as many rows as the first one says, each as long as the second one. -/
theorem rows_of_shape {m : Nested α} {w : Nat} (h : shapeWithin (room + 3) m = ⟨[n, w], false⟩) :
    m.rows.length = n ∧ ∀ row ∈ m.rows, row.length = w := by
  obtain ⟨ms, rfl⟩ := exists_list_of_shape h
  obtain ⟨hlength, hmem⟩ := members_of_shape h
  refine ⟨(List.length_map items).trans hlength, fun row hrow => ?_⟩
  obtain ⟨m, hm, rfl⟩ := List.mem_map.mp hrow
  obtain ⟨ms', rfl⟩ := exists_list_of_shape (hmem m hm)
  obtain ⟨l, hl, rfl⟩ := items_of_shape (hmem _ hm)
  rw [items, itemsAll_map_item]
  exact hl

end Chip8.Nested
