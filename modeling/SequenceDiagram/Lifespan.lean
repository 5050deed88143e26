import SequenceDiagram.Mention

/-!
When an actor is alive, as signed line marks: a positive mark starts an interval, a negative one ends
it. A mention changes the marks or is refused with a fault, and a refused mention changes nothing.
-/

namespace SequenceDiagram

/-- The line marks of one actor, oldest first. -/
structure Lifespan where
  marks : List Int := []
deriving DecidableEq, Repr

/-- Why a mention does not fit the life of its actor. -/
inductive LifecycleFault where
  /-- The mention ends a life that has not begun or is already over. -/
  | endsUnopened
  /-- The mention is for one line only, and the actor is alive already. -/
  | oneShotWhileOpen
  /-- The mention has a slash on either side. -/
  | ambiguousMarker
deriving DecidableEq, Repr

namespace Lifespan

/-- The greatest line number that a mark can hold, one less than 2⁶³; later lines share it. -/
def lastLine : Nat := 0x7FFFFFFFFFFFFFFF

/-- The mark that starts an interval at a line. Its negation ends one there. -/
def markAt (line : Nat) : Int := min line lastLine

/-- The last mark starts an interval that nothing has ended. -/
def isOpen (l : Lifespan) : Bool := l.marks.length % 2 == 1

def lastMark? (l : Lifespan) : Option Int := l.marks.getLast?

def openAt (l : Lifespan) (line : Nat) : Lifespan := ⟨l.marks ++ [markAt line]⟩

def closeAt (l : Lifespan) (line : Nat) : Lifespan := ⟨l.marks ++ [-markAt line]⟩

/-- The first and last line of each interval that a list of marks completes. -/
def intervalsOf : List Int → List (Nat × Nat)
  | start :: stop :: marks => (start.natAbs, stop.natAbs) :: intervalsOf marks
  | _ => []

/-- The completed intervals, oldest first. -/
def intervals (l : Lifespan) : List (Nat × Nat) := intervalsOf l.marks

example : intervals ⟨[1, -3, 5, -5, 7]⟩ = [(1, 3), (5, 5)] := by decide

/-- The life after a mention at a line. A plain mention starts an interval only where the last mark,
if there is one, is negative. -/
def mention (l : Lifespan) (marker : Marker) (line : Nat) : Except LifecycleFault Lifespan :=
  match marker with
  | .plain => .ok (if l.lastMark?.all (· < 0) then l.openAt line else l)
  | .ending => if l.isOpen then .ok (l.closeAt line) else .error .endsUnopened
  | .oneShot => if l.isOpen then .error .oneShotWhileOpen else .ok ((l.openAt line).closeAt line)
  | .ambiguous => .error .ambiguousMarker

/-- The life with an open interval ended at a line. -/
def cap (l : Lifespan) (line : Nat) : Lifespan :=
  if l.isOpen && l.lastMark?.any (0 < ·) then l.closeAt line else l

end Lifespan

end SequenceDiagram
