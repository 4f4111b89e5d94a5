import Chip8.Number.Bounds

/-!
# Sixteen keys

Which of the keys `0` to `F` are down.
-/

namespace Chip8

abbrev Keys := Vector Bool 16

namespace Keys

abbrev count : Nat := 16

def none : Keys := Vector.replicate 16 false

def set (k : Keys) (i : Fin 16) (down : Bool) : Keys := Vector.set k i down (Number.lt_sixteen i)

def any (k : Keys) : Bool := Vector.any k id

/-- The keys that are down, in ascending order. -/
def held (k : Keys) : List (Fin 16) := (List.finRange 16).filter k.get

def lowest? (k : Keys) : Option (Fin 16) := (List.finRange 16).find? k.get

theorem any_iff {k : Keys} : k.any = true ↔ ∃ i : Fin 16, k.get i = true := by
  simp only [any, Vector.any_eq_true, id]
  exact ⟨fun ⟨i, hi, h⟩ => ⟨⟨i, hi⟩, h⟩, fun ⟨i, h⟩ => ⟨i, i.2, h⟩⟩

/-- There is a lowest key exactly if some key is down. -/
theorem lowest?_isSome {k : Keys} : k.lowest?.isSome = k.any := by
  rw [Bool.eq_iff_iff, any_iff, lowest?, List.find?_isSome]
  simp

theorem lowest?_eq_none_iff {k : Keys} : k.lowest? = Option.none ↔ k.any = false := by
  rw [← Option.not_isSome_iff_eq_none, lowest?_isSome, Bool.not_eq_true]

theorem any_of_lowest? {k : Keys} {i : Fin 16} (h : k.lowest? = some i) : k.any = true := by
  rw [← lowest?_isSome, h]
  rfl

theorem getElem?_beq (k : Keys) {n : Nat} (h : n < 16) (b : Bool) :
    (k[n]? == some b) = (k[n] == b) := by
  rw [Vector.getElem?_eq_getElem h]
  rfl

end Keys

end Chip8
