import SequenceDiagram.Counting
import SequenceDiagram.Picture.Paint

/-!
The painter as it counts. Every sum of columns or rows is counted in the order in which it is needed, and
a difference fails where its numbers are in the wrong order, save where zero is what is meant: for room
that is not there, and for what would lie left of the first column or above the first row.

The messages are placed first, then the canvas is measured, then the picture is drawn piece by piece: a
header, an activation box, a message. What a piece counts it counts before anything of it is drawn, so a
piece that cannot be drawn is refused before a later one ends the run.
-/

namespace SequenceDiagram

/-- The text in at most `room` columns. -/
def Text.fit? (room : Nat) (t : Text) : Option Text :=
  if t.length ≤ room then some t
  else if room = 0 then some []
  else do
    let kept ← minus? room 1
    return t.take kept ++ ['…']

/-- The first column right of a label. -/
def Label.stop? (n : Counting) (l : Label) : Option Nat := n.count? l.stop

/-- The label of a bar. -/
def Label.ofBar? (n : Counting) (boxReach left right : Nat) (t : Text) : Option Label := do
  let inset ← n.count? (boxReach + Measure.labelPad + 1)
  let start ← n.count? (left + inset)
  let past ← n.count? (start + inset)
  let behind ← n.count? (right + 1)
  let room := behind - past
  let text ← t.fit? room
  let spare ← minus? room text.length
  let column ← n.count? (start + spare / 2)
  return { column, text }

/-- The columns that a bar between two lifelines begins and ends at: clear of the boxes where there is
room for that. -/
def Bar.ends? (n : Counting) (boxReach left right : Nat) : Option (Nat × Nat) := do
  let distance ← minus? right left
  let boxes ← n.count? (2 * boxReach + 1)
  if boxes < distance then do
    let leftEnd ← n.count? (left + boxReach)
    let rightEnd ← minus? right boxReach
    return (leftEnd, rightEnd)
  else return (left, right)

/-- The bar between two lifelines. -/
def Bar.between? (n : Counting) (boxReach left right : Nat) (rightward : Bool) : Option Bar := do
  let (leftEnd, rightEnd) ← ends? n boxReach left right
  if rightward then do
    let stop ← minus? rightEnd 1
    return { start := leftEnd, stop, rightward }
  else do
    let start ← n.count? (leftEnd + 1)
    return { start, stop := rightEnd, rightward }

/-- The column where a loop turns back. -/
def Loop.corner? (n : Counting) (boxReach start : Nat) (next? : Option Nat) : Option Nat := do
  let full ← n.count? (start + Measure.loopReach)
  match next? with
  | none => return full
  | some next =>
    let half ← n.count? (boxReach + 1)
    let least ← n.count? (start + 1)
    return max (min full (next - half)) least

/-- The room of a loop's label. -/
def Loop.room? (n : Counting) (boxReach column : Nat) (t : Text) : Option Nat → Option Nat
  | none => some t.length
  | some next => do
    let behind ← n.count? (next + 1)
    let past ← n.count? (column + boxReach + Measure.labelPad + 1)
    return behind - past

/-- The loop beside a lifeline. -/
def Loop.ofMid? (n : Counting) (boxReach mid : Nat) (next? : Option Nat) (t : Text) : Option Loop := do
  let start ← n.count? (mid + boxReach)
  let corner ← corner? n boxReach start next?
  let column ← n.count? (corner + Measure.labelPad + 1)
  let room ← room? n boxReach column t next?
  let text ← t.fit? room
  return { start, corner, label := { column, text } }

namespace Shape

/-- The header of an actor with the lifeline. -/
def ofActor? (n : Counting) (bottom : Nat) (a : Actor) : Option (List Shape) := do
  let s := a.slot
  let right ← n.count? (s.left + max s.width 1)
  let lastColumn ← minus? right 1
  let below ← n.count? (s.top + max s.height 1)
  let lastRow ← minus? below 1
  let nameColumn ← n.count? (s.left + (s.width - a.name.length) / 2)
  let nameRow ← n.count? (s.top + s.height / 2)
  return [frame s.left s.top lastColumn lastRow, text nameColumn nameRow a.name,
    down a.mid lastRow (max bottom lastRow)]

/-- The blank inside of an activation box. -/
def inside? (n : Counting) (left right top bottom : Nat) : Option (List Shape) := do
  let below ← n.count? (top + 1)
  if below < bottom then do
    let lowest ← minus? bottom 1
    return [erase left below right lowest]
  else return []

/-- An activation box. -/
def ofActivation? (n : Counting) (boxReach mid first last : Nat) : Option (List Shape) := do
  let left := mid - boxReach
  let right ← n.count? (mid + boxReach)
  let top := first - 1
  let bottom ← n.count? (last + 1)
  let inside ← inside? n left right top bottom
  return inside ++ [frame left top right bottom]

/-- The label in the row above a row, if anything of it is left. -/
def labelAbove? (row : Nat) (l : Label) : Option (List Shape) :=
  if l.isEmpty then some []
  else do
    let above ← minus? row 1
    return [text l.column above l.text]

/-- The strokes of a message's bar. -/
def barStrokes? (n : Counting) (m : PlacedMessage) (b : Bar) : Option (List Shape) :=
  match m.message.arrow.weight with
  | .thin => some [across b.start b.stop m.row]
  | .thick =>
    if b.start < b.stop then
      if m.rightward then do
        let start ← n.count? (b.start + 1)
        return [heavy start b.stop m.row]
      else do
        let stop ← minus? b.stop 1
        return [heavy b.start stop m.row]
    else some []

/-- A bar with its head and its label. -/
def ofBar? (n : Counting) (boxReach : Nat) (m : PlacedMessage) : Option (List Shape) := do
  let left := min m.source m.target
  let right := max m.source m.target
  let b ← Bar.between? n boxReach left right m.rightward
  let bar ← barStrokes? n m b
  let label ← Label.ofBar? n boxReach left right m.message.label
  let above ← labelAbove? m.row label
  return bar ++ [dot b.headColumn m.row (head m.rightward)] ++ above

/-- The strokes of a message's loop, out in the row `top`. -/
def loopStrokes? (n : Counting) (m : PlacedMessage) (l : Loop) (top : Nat) : Option (List Shape) :=
  match m.message.arrow.weight with
  | .thin => do
    let stop ← minus? l.corner 1
    return [across l.start stop top, across l.start stop m.row, dot l.corner top '┐', dot l.corner m.row '┘']
  | .thick => do
    let inner ← n.count? (l.start + 1)
    let corners := [dot l.corner top '╕', dot l.corner m.row '╛']
    if inner < l.corner then do
      let stop ← minus? l.corner 1
      return [heavy inner stop top, heavy inner stop m.row] ++ corners
    else return corners

/-- A loop with its head and its label. -/
def ofLoop? (n : Counting) (boxReach : Nat) (m : PlacedMessage) : Option (List Shape) := do
  let l ← Loop.ofMid? n boxReach m.source m.next? m.message.label
  let top ← minus? m.row 1
  let bars ← loopStrokes? n m l top
  let inner ← n.count? (l.start + 1)
  return bars ++ [dot inner (if m.rightward then top else m.row) (head m.rightward)] ++ ofLabel top l.label

/-- A message as its loop or its bar. -/
def ofMessage? (n : Counting) (boxReach : Nat) (m : PlacedMessage) : Option (List Shape) :=
  if m.message.isSelf then ofLoop? n boxReach m else ofBar? n boxReach m

end Shape

/-- The first column right of everything that is drawn for a message. -/
def PlacedMessage.stop? (n : Counting) (boxReach : Nat) (m : PlacedMessage) : Option Nat :=
  if m.message.isSelf then do
    let l ← Loop.ofMid? n boxReach m.source m.next? m.message.label
    let behind ← n.count? (l.corner + 1)
    let stop ← l.label.stop? n
    return max behind stop
  else do
    let left := min m.source m.target
    let right := max m.source m.target
    let label ← Label.ofBar? n boxReach left right m.message.label
    let behind ← n.count? (right + 1)
    let stop ← label.stop? n
    return max behind stop

/-- The canvas draws pieces one after the other, up to the first that is refused or whose columns and
rows cannot be counted. -/
def Canvas.drawPieces? (c : Canvas) : List (Option (List Shape)) → Option (Except CanvasError Canvas)
  | [] => some (.ok c)
  | piece :: pieces => do
    match c.drawAll (← piece) with
    | .error e => return .error e
    | .ok next => next.drawPieces? pieces

namespace Picture

variable (n : Counting) (style : Style) (headerOffset : Nat)

/-- The row of the message on a line. -/
def rowOf? (line : Nat) : Option Nat := n.count? (rowOf headerOffset style line)

/-- A message with the columns of its actors and its row. Who is not there is missed first. -/
def place? (cast : Cast) (index : Nat) (m : Message) : Option (Except PaintError PlacedMessage) :=
  match place cast (rowOf headerOffset style (index + 1)) index m with
  | .error e => some (.error e)
  | .ok p => (rowOf? n style headerOffset (index + 1)).map fun row => .ok { p with row }

/-- The messages placed one after the other, up to the first that cannot be. -/
def placeFrom? (cast : Cast) (index : Nat) : List Message → Option (Except PaintError (List PlacedMessage))
  | [] => some (.ok [])
  | m :: messages => do
    match ← place? n style headerOffset cast index m with
    | .error e => return .error e
    | .ok p => return (← placeFrom? cast (index + 1) messages).map (p :: ·)

/-- The first column right of all headers and messages. -/
def stop? (cast : Cast) (placed : List PlacedMessage) : Option Nat := do
  let rights ← cast.actors.mapM fun a => n.count? a.slot.right
  let stops ← placed.mapM (·.stop? n style.boxReach)
  return (rights ++ stops).foldl max 0

/-- The messages where they are drawn, and the size of the canvas. -/
structure Sheet where
  placed : List PlacedMessage
  width : Nat
  height : Nat
deriving DecidableEq, Repr

/-- Places the messages and measures the canvas. -/
def sheet? (d : Diagram) : Option (Except PaintError Sheet) := do
  let bottom ← rowOf? n style headerOffset (d.lineCount + 1)
  match ← placeFrom? n style headerOffset d.cast 0 d.messages with
  | .error e => return .error e
  | .ok placed =>
    let stop ← stop? n style d.cast placed
    let width ← n.count? (stop + rightMargin)
    let height ← n.count? (bottom + 1)
    return .ok { placed, width, height }

/-- The activation boxes of an actor, one piece each. -/
def activations? (a : Actor) : List (Option (List Shape)) :=
  a.lifespan.intervals.map fun (first, last) => do
    let first ← rowOf? n style headerOffset first
    let last ← rowOf? n style headerOffset last
    Shape.ofActivation? n style.boxReach a.mid first last

/-- The headers, each with its lifeline. -/
def headers? (d : Diagram) : List (Option (List Shape)) :=
  d.cast.actors.map (Shape.ofActor? n (rowOf headerOffset style (d.lineCount + 1)))

/-- The activation boxes and the messages, which are drawn over the lifelines. -/
def foreground? (d : Diagram) (placed : List PlacedMessage) : List (Option (List Shape)) :=
  d.cast.actors.flatMap (activations? n style headerOffset) ++ placed.map (Shape.ofMessage? n style.boxReach)

/-- Everything that is drawn, piece by piece. -/
def pieces? (d : Diagram) (placed : List PlacedMessage) : List (Option (List Shape)) :=
  headers? n style headerOffset d ++ foreground? n style headerOffset d placed

/-- Everything that is drawn, where all of it can be counted. -/
def shapes? (d : Diagram) (placed : List PlacedMessage) : Option (List Shape) :=
  ((pieces? n style headerOffset d placed).mapM id).map List.flatten

/-- The canvas with the diagram on it. -/
def canvas? (d : Diagram) : Option (Except PaintError Canvas) := do
  match ← sheet? n style headerOffset d with
  | .error e => return .error e
  | .ok sheet =>
    match Canvas.blank sheet.width sheet.height with
    | .error e => return .error (.canvas e)
    | .ok blank =>
      let drawn ← blank.drawPieces? (pieces? n style headerOffset d sheet.placed)
      return drawn.mapError .canvas

/-- The picture of an arranged diagram. -/
def paint? (d : Diagram) : Option (Except PaintError Text) :=
  if d.cast.isEmpty then some (.ok [])
  else (canvas? n style headerOffset d).map (·.map Canvas.picture)

end Picture

end SequenceDiagram
