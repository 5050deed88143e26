import SequenceDiagram.Layout.Page
import SequenceDiagram.Diagram

/-!
The room that labels need. A demand asks for a distance between the centre lines of two places in the
row of actors. A demand that the row does not meet moves the actor at its right end, and all actors
further right, by the distance that is missing; so what earlier demands were given stays given.
-/

namespace SequenceDiagram

/-- A distance wanted between the centre lines of two places. -/
structure Demand where
  /-- The place at the left end. -/
  left : Nat
  /-- The place at the right end. -/
  right : Nat
  /-- The columns wanted. -/
  columns : Nat
deriving DecidableEq, Repr

/-- The centre line at a place; beyond the last actor it is column 0. -/
def midAt (actors : List Actor) (place : Nat) : Nat := (actors[place]?.map Actor.mid).getD 0

namespace Demand

/-- The actors from the left end to the right end. -/
def reach (d : Demand) (actors : List Actor) : List Actor :=
  (actors.drop d.left).take (d.right + 1 - d.left)

/-- Some actor between the ends lies further from the left end than the demand asks. -/
def isMet (d : Demand) (actors : List Actor) : Bool :=
  (d.reach actors).any fun a => d.columns < a.mid - midAt actors d.left

/-- The columns missing between the ends. -/
def shortfall (d : Demand) (actors : List Actor) : Nat :=
  d.columns - (midAt actors d.right - midAt actors d.left)

/-- The row with every actor from a place on moved to the right. -/
def shiftFrom (place columns : Nat) (actors : List Actor) : List Actor :=
  actors.take place ++ (actors.drop place).map (·.moveRight columns)

/-- The row with the demand met. -/
def grant (d : Demand) (actors : List Actor) : List Actor :=
  if d.isMet actors then actors else shiftFrom d.right (d.shortfall actors) actors

end Demand

end SequenceDiagram
