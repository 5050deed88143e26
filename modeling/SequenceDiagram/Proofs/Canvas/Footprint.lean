import SequenceDiagram.Proofs.Canvas.Strokes

/-! What a shape writes where. A shape writes to a position at most once: the line
between two ends, the rectangle between two corners or its edge, in whatever order they
are given, and of a text what has a column on the canvas. -/
namespace SequenceDiagram

variable {s : Shape} {ch char : Char} {left top right bottom width level column x y a b : Nat}

namespace Shape

/-- The character of a horizontal line between two columns, at a position of it. -/
def rowChar? (ch : Char) (level a b x y : Nat) : Option Char :=
  if y = level ∧ min a b ≤ x ∧ x ≤ max a b then some ch else none

/-- The character of a vertical line between two rows, at a position of it. -/
def columnChar? (ch : Char) (column a b x y : Nat) : Option Char :=
  if x = column ∧ min a b ≤ y ∧ y ≤ max a b then some ch else none

/-- The character of the edge of a rectangle, at a position of it. -/
def edgeChar? (left top right bottom x y : Nat) : Option Char :=
  if x = left ∧ y = top then some '┌'
  else if x = right ∧ y = top then some '┐'
  else if x = left ∧ y = bottom then some '└'
  else if x = right ∧ y = bottom then some '┘'
  else if (y = top ∨ y = bottom) ∧ left < x ∧ x < right then some '─'
  else if (x = left ∨ x = right) ∧ top < y ∧ y < bottom then some '│'
  else none

/-- The character that a shape writes to a position on a canvas of a width, if it
writes there. -/
def charAt? (width x y : Nat) : Shape → Option Char
  | dot column row ch => if x = column ∧ y = row then some ch else none
  | text column row t => if y = row ∧ column ≤ x ∧ x < width then t[x - column]? else none
  | erase x0 y0 x1 y1 =>
    if (min x0 x1 ≤ x ∧ x ≤ max x0 x1) ∧ min y0 y1 ≤ y ∧ y ≤ max y0 y1 then some ' ' else none
  | across x0 x1 row => rowChar? '─' row x0 x1 x y
  | heavy x0 x1 row => rowChar? '═' row x0 x1 x y
  | down column y0 y1 => columnChar? '│' column y0 y1 x y
  | frame x0 y0 x1 y1 =>
    if y0 = y1 then rowChar? '─' y0 x0 x1 x y
    else if x0 = x1 then columnChar? '│' x0 y0 y1 x y
    else edgeChar? (min x0 x1) (min y0 y1) (max x0 x1) (max y0 y1) x y

theorem mem_row_iff_rowChar? :
    ⟨x, y, ch⟩ ∈ row char level (between a b) ↔ rowChar? char level a b x y = some ch := by
  rw [mem_row_iff, mem_between, rowChar?, Option.ite_none_right_eq_some, Option.some.injEq, eq_comm (a := ch),
    and_comm]

theorem mem_column_iff_columnChar? :
    ⟨x, y, ch⟩ ∈ Shape.column char column (between a b) ↔ columnChar? char column a b x y = some ch := by
  rw [mem_column_iff, mem_between, columnChar?, Option.ite_none_right_eq_some, Option.some.injEq, eq_comm (a := ch),
    and_comm]

theorem mem_edge_iff_edgeChar? (wide : left < right) (high : top < bottom) :
    ⟨x, y, ch⟩ ∈ edge left top right bottom ↔ edgeChar? left top right bottom x y = some ch := by
  rw [mem_edge_iff (Nat.le_of_lt wide) (Nat.le_of_lt high)]
  constructor
  · rintro (⟨rfl, _⟩ | ⟨rfl, _⟩ | ⟨rfl, _⟩ | ⟨rfl, _⟩ | ⟨_, _, rfl⟩ | ⟨_, _, rfl⟩ | ⟨_, _, rfl⟩ | ⟨_, _, rfl⟩) <;>
      grind [edgeChar?]
  · intro shown
    unfold edgeChar? at shown
    split_ifs at shown <;> cases shown <;> simp <;> omega

/-- The footprint of a shape is what the shape writes to each position. -/
theorem mem_footprint_iff : ⟨x, y, ch⟩ ∈ s.footprint width ↔ s.charAt? width x y = some ch := by
  cases s with
  | dot column row char =>
    simp [footprint, charAt?, Option.ite_none_right_eq_some, and_assoc, eq_comm (a := ch)]
  | text column row t =>
    rw [charAt?, footprint, Option.ite_none_right_eq_some]
    simp only [List.mem_map, Prod.exists, List.mem_zipIdx_iff_getElem?, Spot.mk.injEq]
    constructor
    · rintro ⟨_, offset, written, rfl, rfl, rfl⟩
      obtain ⟨inside, _⟩ := List.getElem?_eq_some_iff.mp written
      rw [List.length_take] at inside
      rw [List.getElem?_take_of_lt (by omega)] at written
      refine ⟨⟨rfl, by omega, by omega⟩, ?_⟩
      rwa [Nat.add_sub_cancel_left]
    · rintro ⟨⟨rfl, right, inside⟩, written⟩
      refine ⟨ch, x - column, ?_, by omega, rfl, rfl⟩
      rwa [List.getElem?_take_of_lt (by omega)]
  | erase x0 y0 x1 y1 =>
    rw [footprint, charAt?, Option.ite_none_right_eq_some, Option.some.injEq]
    simp only [List.mem_flatMap, mem_row_iff, mem_between]
    constructor
    · rintro ⟨_, level, rfl, rfl, inner⟩
      exact ⟨⟨inner, level⟩, rfl⟩
    · rintro ⟨⟨inner, level⟩, rfl⟩
      exact ⟨y, level, rfl, rfl, inner⟩
  | across x0 x1 row => exact mem_row_iff_rowChar?
  | heavy x0 x1 row => exact mem_row_iff_rowChar?
  | down column y0 y1 => exact mem_column_iff_columnChar?
  | frame x0 y0 x1 y1 =>
    rw [footprint, charAt?]
    split
    · exact mem_row_iff_rowChar?
    · split
      · exact mem_column_iff_columnChar?
      · exact mem_edge_iff_edgeChar? (by omega) (by omega)

end Shape

end SequenceDiagram
