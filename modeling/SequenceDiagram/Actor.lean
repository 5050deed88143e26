import SequenceDiagram.Lifespan

/-!
An actor: a name, a life, and the slot its header takes in the layout. Columns grow to the right and
rows downwards. The centre line of a slot follows from its left edge and width, so moving a slot
moves its centre line along.
-/

namespace SequenceDiagram

/-- The rectangle of an actor's header. -/
structure Slot where
  /-- The leftmost column. -/
  left : Nat := 0
  /-- The number of columns. -/
  width : Nat := 0
  /-- The topmost row. -/
  top : Nat := 0
  /-- The number of rows. -/
  height : Nat := 0
deriving DecidableEq, Repr

namespace Slot

/-- The column of the lifeline: halfway between the two edges, rounded down. -/
def mid (s : Slot) : Nat := (2 * s.left + s.width) / 2

/-- The first column right of the slot. -/
def right (s : Slot) : Nat := s.left + s.width

/-- The first row below the slot. -/
def bottom (s : Slot) : Nat := s.top + s.height

def moveRight (s : Slot) (columns : Nat) : Slot := { s with left := s.left + columns }

/-- The centre line lies half a width right of the left edge. -/
theorem mid_eq (s : Slot) : s.mid = s.left + s.width / 2 := by
  simp only [mid]; omega

/-- A slot keeps the distance of its centre line when it moves. -/
theorem mid_moveRight (s : Slot) (columns : Nat) : (s.moveRight columns).mid = s.mid + columns := by
  simp only [mid_eq, moveRight]; omega

end Slot

/-- A participant of a diagram. -/
structure Actor where
  name : Text
  lifespan : Lifespan := {}
  slot : Slot := {}
deriving DecidableEq, Repr

namespace Actor

/-- The column of the actor's lifeline. -/
def mid (a : Actor) : Nat := a.slot.mid

def moveRight (a : Actor) (columns : Nat) : Actor := { a with slot := a.slot.moveRight columns }

end Actor

end SequenceDiagram
