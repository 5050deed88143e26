import SequenceDiagram.Picture.Route
import SequenceDiagram.Canvas.Shape
import SequenceDiagram.Actor
import SequenceDiagram.Message

/-!
The parts of a picture as shapes: the header of an actor with its lifeline, the activation boxes on
a lifeline, and the bar or loop of a message with its head and its label. The shapes are given in the
order they are drawn in, so later ones cover or cross earlier ones.
-/

namespace SequenceDiagram

/-- A message with the columns and the row it is drawn at. -/
structure PlacedMessage where
  message : Message
  /-- The lifeline of the source. -/
  source : Nat
  /-- The lifeline of the target. -/
  target : Nat
  /-- The lifeline right of the source's. -/
  next? : Option Nat
  rightward : Bool
  /-- The row of the bar; the label stands in the row above. -/
  row : Nat
deriving DecidableEq, Repr

namespace Shape

/-- The header box with the name in it, and the lifeline from its bottom edge down to row `bottom`. -/
def ofActor (bottom : Nat) (a : Actor) : List Shape :=
  let s := a.slot
  let lastRow := s.top + max s.height 1 - 1
  [frame s.left s.top (s.left + max s.width 1 - 1) lastRow,
    text (s.left + (s.width - a.name.length) / 2) (s.top + s.height / 2) a.name,
    down a.mid lastRow (max bottom lastRow)]

/-- The box on a lifeline from the row above `first` to the row below `last`. Only its inside is
blanked, so two boxes that follow each other share one edge and the lifeline still meets the others. -/
def ofActivation (boxReach mid first last : Nat) : List Shape :=
  let left := mid - boxReach
  let right := mid + boxReach
  let top := first - 1
  let bottom := last + 1
  (if top + 1 < bottom then [erase left (top + 1) right (bottom - 1)] else []) ++
    [frame left top right bottom]

/-- The head of a bar. -/
def head (rightward : Bool) : Char := if rightward then '▶' else '◀'

/-- The label in a row, if anything of it is left. -/
def ofLabel (row : Nat) (l : Label) : List Shape :=
  if l.isEmpty then [] else [text l.column row l.text]

/-- The bar between two lifelines with its head and its label. A heavy bar leaves out the cell at its
tail, where it would cover the edge of a box. -/
def ofBar (boxReach : Nat) (m : PlacedMessage) : List Shape :=
  let left := min m.source m.target
  let right := max m.source m.target
  let b := Bar.between boxReach left right m.rightward
  let bar := match m.message.arrow.weight with
    | .thin => [across b.start b.stop m.row]
    | .thick =>
      if b.start < b.stop then
        [if m.rightward then heavy (b.start + 1) b.stop m.row else heavy b.start (b.stop - 1) m.row]
      else []
  bar ++ [dot b.headColumn m.row (head m.rightward)] ++
    ofLabel (m.row - 1) (.ofBar boxReach left right m.message.label)

/-- The loop of a message to oneself: out in the label's row and back in the row below, with the head
where it comes back, or, for a message that runs to the right, where it leaves. -/
def ofLoop (boxReach : Nat) (m : PlacedMessage) : List Shape :=
  let l := Loop.ofMid boxReach m.source m.next? m.message.label
  let top := m.row - 1
  let bars := match m.message.arrow.weight with
    | .thin =>
      [across l.start (l.corner - 1) top, across l.start (l.corner - 1) m.row,
        dot l.corner top '┐', dot l.corner m.row '┘']
    | .thick =>
      (if l.start + 1 < l.corner then
        [heavy (l.start + 1) (l.corner - 1) top, heavy (l.start + 1) (l.corner - 1) m.row]
      else []) ++ [dot l.corner top '╕', dot l.corner m.row '╛']
  bars ++ [dot (l.start + 1) (if m.rightward then top else m.row) (head m.rightward)] ++
    ofLabel top l.label

/-- A message as its loop or its bar. -/
def ofMessage (boxReach : Nat) (m : PlacedMessage) : List Shape :=
  if m.message.isSelf then ofLoop boxReach m else ofBar boxReach m

end Shape

/-- The first column right of everything that is drawn for a message. -/
def PlacedMessage.stop (boxReach : Nat) (m : PlacedMessage) : Nat :=
  if m.message.isSelf then
    let l := Loop.ofMid boxReach m.source m.next? m.message.label
    max (l.corner + 1) l.label.stop
  else
    let left := min m.source m.target
    let right := max m.source m.target
    max (right + 1) (Label.ofBar boxReach left right m.message.label).stop

end SequenceDiagram
