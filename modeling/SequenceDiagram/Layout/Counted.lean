import SequenceDiagram.Counting
import SequenceDiagram.Layout.Arrange

/-!
The layout as it is counted out. A header is placed where the sum can be counted that its centre line is
half of, and whoever is moved is placed anew; the column behind a header is counted even where nobody
follows. The label of every message is measured in its turn, also where there is nobody to move, and the
rows under the headers come last. A diagram is refused before any of this.
-/

namespace SequenceDiagram

/-- The slot, placed where its left edge and its centre line can be counted. -/
def Slot.placed? (n : Counting) (s : Slot) : Option Slot := (n.count? (2 * s.left + s.width)).map fun _ => s

/-- The actor moved to the right. -/
def Actor.moveRight? (n : Counting) (columns : Nat) (a : Actor) : Option Actor := do
  let left ← n.count? (a.slot.left + columns)
  let slot ← Slot.placed? n { a.slot with left }
  return { a with slot }

/-- The columns of a label in the measure of a style, sum by sum: the label, the half boxes with a blank
beside each, and what is drawn besides. -/
def Measure.terminal? (n : Counting) (boxReach besides : Nat) (label : Text) : Option Nat := do
  let half ← n.count? (boxReach + labelPad)
  let both ← n.count? (2 * half)
  let around ← n.count? (label.length + both)
  let drawn ← n.count? (around + besides)
  n.count? (drawn + 1)

/-- The columns that a measure gives the label of a message. -/
def Message.columns (measure : Measure) (m : Message) : Nat :=
  if m.isSelf then measure.loop m.label else measure.message m.label

/-- The row with the demand met. -/
def Demand.grant? (n : Counting) (d : Demand) (actors : List Actor) : Option (List Actor) :=
  if d.isMet actors then some actors
  else do
    let moved ← (actors.drop d.right).mapM (·.moveRight? n (d.shortfall actors))
    return actors.take d.right ++ moved

namespace Layout

variable (n : Counting) (measure : Measure) (page : Page)

/-- The actors with their headers side by side from column `left` on. -/
def placeHeaders? (left : Nat) : List Actor → Option (List Actor)
  | [] => some []
  | a :: actors => do
    let width ← n.count? (headerWidth measure page a.name)
    let slot ← Slot.placed? n { left, width, top := page.gutter, height := page.lineHeight }
    let next ← n.count? (left + width + page.gutter)
    let others ← placeHeaders? next actors
    return { a with slot } :: others

/-- The row after the turn of a message, where the last place is `last`. -/
def turn? (last : Nat) (row : List Actor) (turn : Message × Ends) : Option (List Actor) := do
  let _ ← n.count? (turn.1.columns measure)
  match turn.1.demand? measure last turn.2 with
  | none => some row
  | some demand => demand.grant? n row

/-- The row once the first messages, so many, have had their turn. -/
def rowAfter? (d : Diagram) (ends : List Ends) (count : Nat) : Option (List Actor) := do
  let row ← placeHeaders? n measure page page.gutter d.cast.actors
  ((d.messages.zip ends).take count).foldlM (turn? n measure (d.cast.size - 1)) row

/-- Places the actors and decides the directions, or ends before that. -/
def arrange? (d : Diagram) : Option (Except LayoutError (Diagram × Outcome)) :=
  if d.cast.isEmpty then some (.ok (d, {}))
  else match resolveEnds d with
    | .error e => some (.error e)
    | .ok ends => do
      let row ← placeHeaders? n measure page page.gutter d.cast.actors
      let actors ← (d.messages.zip ends).foldlM (turn? n measure (d.cast.size - 1)) row
      let bottoms ← actors.mapM fun a => n.count? a.slot.bottom
      return .ok ({ d with cast := ⟨actors⟩, messages := d.messages.zipWith Message.resolve ends },
        { headerOffset := bottoms.foldl max 0,
          warnings := overflows measure page d.cast,
          widened := widenings row (demands measure d ends) })

end Layout

end SequenceDiagram
