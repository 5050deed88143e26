import SequenceDiagram.Picture.Scene
import SequenceDiagram.Canvas.Basic
import SequenceDiagram.Layout.Arrange

/-!
Painting an arranged diagram. The messages are placed, the canvas is made wide and high enough for
them, and the shapes of headers, activation boxes and messages are drawn in that order. Columns and rows
are added up without end here; where a machine's words end, `SequenceDiagram.Picture.Counted` ends the
painting.
-/

namespace SequenceDiagram

/-- Why a diagram cannot be painted. -/
inductive PaintError where
  | canvas (error : CanvasError)
  /-- A message names an actor who does not take part. -/
  | unknownActor (name : Text)
  /-- The message at this index has no direction yet. -/
  | unresolved (index : Nat)
deriving DecidableEq, Repr

def PaintError.message : PaintError → String
  | canvas error =>
    let text := error.message
    s!"canvas error: {text}"
  | unknownActor name =>
    let name := String.ofList name
    s!"missing actor '{name}' in registry"
  | unresolved index => s!"instruction {index} has no resolved direction; run layout first"

namespace Picture

/-- The columns blank at the right of everything drawn. -/
def rightMargin : Nat := 2

/-- The row of the message on a line, and of the ends of activation boxes there. -/
def rowOf (headerOffset : Nat) (style : Style) (line : Nat) : Nat :=
  headerOffset + line * max style.rowHeight 1

/-- A message with the columns of its actors. An open direction is found first, then a source who
does not take part, then such a target. -/
def place (cast : Cast) (row : Nat) (index : Nat) (m : Message) : Except PaintError PlacedMessage :=
  match m.rightward, cast.find? m.source, cast.find? m.target with
  | none, _, _ => .error (.unresolved index)
  | some _, none, _ => .error (.unknownActor m.source)
  | some _, some _, none => .error (.unknownActor m.target)
  | some rightward, some source, some target =>
    let next? := (cast.indexOf? m.source).bind fun place => cast.get? (place + 1)
    .ok { message := m, source := source.mid, target := target.mid, next? := next?.map Actor.mid,
          rightward, row }

/-- All messages placed, the first one a row height below the headers, or the first refusal. -/
def placeAll (d : Diagram) (headerOffset : Nat) (style : Style) :
    Except PaintError (List PlacedMessage) :=
  d.messages.zipIdx.mapM fun (m, index) =>
    place d.cast (rowOf headerOffset style (index + 1)) index m

/-- The first column right of all headers and messages. -/
def stop (cast : Cast) (style : Style) (placed : List PlacedMessage) : Nat :=
  (cast.actors.map (·.slot.right) ++ placed.map (·.stop style.boxReach)).foldl max 0

/-- The activation boxes of an actor, one for each interval of its life. -/
def activations (headerOffset : Nat) (style : Style) (a : Actor) : List Shape :=
  a.lifespan.intervals.flatMap fun (first, last) =>
    Shape.ofActivation style.boxReach a.mid (rowOf headerOffset style first) (rowOf headerOffset style last)

/-- The activation boxes and the messages, which are drawn over the lifelines. -/
def foreground (d : Diagram) (headerOffset : Nat) (style : Style) (placed : List PlacedMessage) :
    List Shape :=
  d.cast.actors.flatMap (activations headerOffset style) ++ placed.flatMap (Shape.ofMessage style.boxReach)

/-- Everything that is drawn, in the order of drawing. -/
def shapes (d : Diagram) (headerOffset : Nat) (style : Style) (placed : List PlacedMessage) :
    List Shape :=
  let bottom := rowOf headerOffset style (d.lineCount + 1)
  d.cast.actors.flatMap (Shape.ofActor bottom) ++
    d.cast.actors.flatMap (activations headerOffset style) ++
    placed.flatMap (Shape.ofMessage style.boxReach)

/-- The columns of the canvas. -/
def canvasWidth (d : Diagram) (style : Style) (placed : List PlacedMessage) : Nat :=
  stop d.cast style placed + rightMargin

/-- The rows of the canvas. -/
def canvasHeight (d : Diagram) (headerOffset : Nat) (style : Style) : Nat :=
  rowOf headerOffset style (d.lineCount + 1) + 1

/-- The canvas with the diagram on it. -/
def canvas (d : Diagram) (headerOffset : Nat) (style : Style) (placed : List PlacedMessage) :
    Except CanvasError Canvas := do
  let bottom := rowOf headerOffset style (d.lineCount + 1)
  let blank ← Canvas.blank (stop d.cast style placed + rightMargin) (bottom + 1)
  blank.drawAll (shapes d headerOffset style placed)

/-- The picture of an arranged diagram. A diagram in which nobody takes part has an empty one. -/
def paint (style : Style) (headerOffset : Nat) (d : Diagram) : Except PaintError Text :=
  if d.cast.isEmpty then .ok []
  else match placeAll d headerOffset style with
    | .error e => .error e
    | .ok placed => ((canvas d headerOffset style placed).mapError .canvas).map Canvas.picture

end Picture

end SequenceDiagram
