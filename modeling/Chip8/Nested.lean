import Chip8.Number.Numeral

/-!
# Nested lists

Array literals: an item, or a list of nested lists.  A literal is rectangular when at each depth all
lists have one length and no item stands beside a list; its shape is the list of these lengths.  An
array has at most `64` dimensions, so lists that are nested deeper count as parts that differ.
-/

namespace Chip8

inductive Nested (α : Type) where
  | item (a : α)
  | list (members : List (Nested α))

/-- The lengths that all parts of a literal agree on, outermost first, and whether the parts differ
below that. -/
structure Shape where
  dims : List Nat
  ragged : Bool := false
  deriving DecidableEq, Repr

namespace Shape

/-- The most dimensions that an array can have. -/
def maxRank : Nat := 64

def commonPrefix : List Nat → List Nat → List Nat
  | a :: as, b :: bs => if a = b then a :: commonPrefix as bs else []
  | _, _ => []

/-- What two members of one list have in common. -/
def meet (a b : Shape) : Shape :=
  ⟨commonPrefix a.dims b.dims, a.ragged || b.ragged || a.dims != b.dims⟩

/-- The lengths as a tuple; a single one keeps a comma. -/
def text (dims : List Nat) : String :=
  match dims with
  | [n] => "(" ++ Numeral.decimal n ++ ",)"
  | _ => "(" ++ ", ".intercalate (dims.map fun n : Nat => Numeral.decimal n) ++ ")"

/-- The complaint about a literal that is not rectangular or too deep. -/
def raggedMessage (s : Shape) : String :=
  "setting an array element with a sequence. The requested array " ++
    if s.dims.length = maxRank then
      "would exceed the maximum number of dimension of " ++ Numeral.decimal maxRank ++ "."
    else
      "has an inhomogeneous shape after " ++ Numeral.decimal s.dims.length ++
        " dimensions. The detected shape was " ++ text s.dims ++ " + inhomogeneous part."

theorem commonPrefix_self (l : List Nat) : commonPrefix l l = l := by
  induction l with
  | nil => rfl
  | cons a l ih => simp [commonPrefix, ih]

theorem meet_self (s : Shape) : s.meet s = s := by
  cases s
  simp [meet, commonPrefix_self]

end Shape

namespace Nested

variable {α : Type}

mutual

/-- The shape of a part of a literal that may have `room` more dimensions. -/
def shapeWithin : (room : Nat) → Nested α → Shape
  | _, item _ => ⟨[], false⟩
  | 0, list _ => ⟨[], true⟩
  | _ + 1, list [] => ⟨[0], false⟩
  | room + 1, list (m :: ms) =>
    let inner := shapeAll room (shapeWithin room m) ms
    ⟨(ms.length + 1) :: inner.dims, inner.ragged⟩

def shapeAll (room : Nat) (s : Shape) : List (Nested α) → Shape
  | [] => s
  | m :: ms => shapeAll room (s.meet (shapeWithin room m)) ms

end

def shape (l : Nested α) : Shape := shapeWithin Shape.maxRank l

mutual

/-- The items from left to right. -/
def items : Nested α → List α
  | item a => [a]
  | list ms => itemsAll ms

def itemsAll : List (Nested α) → List α
  | [] => []
  | m :: ms => items m ++ itemsAll ms

end

/-- The rows of a literal of rank two. -/
def rows : Nested α → List (List α)
  | item a => [[a]]
  | list ms => ms.map items

theorem itemsAll_eq (ms : List (Nested α)) : itemsAll ms = ms.flatMap items := by
  induction ms with
  | nil => rfl
  | cons m ms ih => simp [itemsAll, ih]

/-- Items that stand in one list make a literal of rank one. -/
theorem shape_list_item (l : List α) : (list (l.map item)).shape = ⟨[l.length], false⟩ := by
  cases l with
  | nil => simp [shape, Shape.maxRank, shapeWithin]
  | cons a l =>
    have : ∀ l : List α, shapeAll 63 ⟨[], false⟩ (l.map item) = ⟨[], false⟩ := by
      intro l
      induction l with
      | nil => simp [shapeAll]
      | cons a l ih => simp [shapeAll, shapeWithin, Shape.meet, Shape.commonPrefix, ih]
    simp [shape, Shape.maxRank, shapeWithin, this]

end Nested

end Chip8
