import SequenceDiagram.Text.Basic

/-!
Strokes as sets of arms. A box-drawing character says on which sides of its cell a line leaves it.
Two strokes on one cell join into the stroke with the arms of both, so a vertical line across a
horizontal one becomes a cross.
-/

namespace SequenceDiagram

/-- A side of a cell. -/
inductive Side where
  | left
  | right
  | up
  | down
deriving DecidableEq, Repr

/-- The side that the neighbour on this side sees the cell from. -/
def Side.opposite : Side → Side
  | .left => .right
  | .right => .left
  | .up => .down
  | .down => .up

/-- The sides on which lines leave a cell. -/
structure Arms where
  left : Bool := false
  right : Bool := false
  up : Bool := false
  down : Bool := false
deriving DecidableEq, Repr

namespace Arms

/-- No arm at all: the cell holds no stroke. -/
def none : Arms := {}

def isEmpty (a : Arms) : Bool := a == none

def has (a : Arms) : Side → Bool
  | .left => a.left
  | .right => a.right
  | .up => a.up
  | .down => a.down

/-- The arms of either stroke. -/
def union (a b : Arms) : Arms :=
  { left := a.left || b.left, right := a.right || b.right, up := a.up || b.up, down := a.down || b.down }

/-- The character that shows the arms. A single arm shows as the straight line along it. -/
def glyph : Arms → Char
  | ⟨false, false, false, false⟩ => ' '
  | ⟨_, _, false, false⟩ => '─'
  | ⟨false, false, _, _⟩ => '│'
  | ⟨false, true, false, true⟩ => '┌'
  | ⟨true, false, false, true⟩ => '┐'
  | ⟨false, true, true, false⟩ => '└'
  | ⟨true, false, true, false⟩ => '┘'
  | ⟨false, true, true, true⟩ => '├'
  | ⟨true, false, true, true⟩ => '┤'
  | ⟨true, true, false, true⟩ => '┬'
  | ⟨true, true, true, false⟩ => '┴'
  | ⟨true, true, true, true⟩ => '┼'

/-- The arms of a stroke character; every other character is no stroke. -/
def ofChar? : Char → Option Arms
  | '─' => some { left := true, right := true }
  | '│' => some { up := true, down := true }
  | '┌' => some { right := true, down := true }
  | '┐' => some { left := true, down := true }
  | '└' => some { right := true, up := true }
  | '┘' => some { left := true, up := true }
  | '├' => some { right := true, up := true, down := true }
  | '┤' => some { left := true, up := true, down := true }
  | '┬' => some { left := true, right := true, down := true }
  | '┴' => some { left := true, right := true, up := true }
  | '┼' => some { left := true, right := true, up := true, down := true }
  | _ => Option.none

/-- A stroke character is shown by its own arms again. -/
theorem glyph_of_ofChar? {c : Char} {a : Arms} (stroke : ofChar? c = some a) : a.glyph = c := by
  unfold ofChar? at stroke
  split at stroke <;> cases stroke <;> rfl

theorem union_comm (a b : Arms) : a.union b = b.union a := by
  simp [union, Bool.or_comm]

theorem union_assoc (a b c : Arms) : (a.union b).union c = a.union (b.union c) := by
  simp [union, Bool.or_assoc]

/-- A stroke drawn twice is the stroke drawn once. -/
theorem union_self (a : Arms) : a.union a = a := by
  simp [union]

theorem has_union (a b : Arms) (s : Side) : (a.union b).has s = (a.has s || b.has s) := by
  cases s <;> rfl

end Arms

end SequenceDiagram
