import SequenceDiagram.Diagram
import SequenceDiagram.Picture.Paint

/-!
From text to picture in one go: the text is read, the diagram arranged, the picture painted. The first
of the three that fails decides the error.
-/

namespace SequenceDiagram

/-- Why a text has no picture. -/
inductive DrawingError where
  | parse (error : ParseError)
  | layout (error : LayoutError)
  | paint (error : PaintError)
deriving DecidableEq, Repr

namespace DrawingError

/-- The message of the failure itself, without a word on which of the three steps it was. -/
def cause : DrawingError → String
  | parse error => error.message
  | layout error => error.message
  | paint error => error.message

def message (e : DrawingError) : String :=
  match e with
  | parse _ => e.cause
  | layout _ => "layout failed: " ++ e.cause
  | paint _ => "render failed: " ++ e.cause

/-- The messages of the failures that led to this one, the nearest first. A mention that does not fit
is a failure of its own below the line's. -/
def causes (e : DrawingError) : List String :=
  match e with
  | parse (.lifecycle error) => [e.cause, error.message]
  | _ => [e.cause]

end DrawingError

/-- The diagram of a text with its places and what the layout reports. -/
def Diagram.ofText (measure : Measure) (page : Page) (text : Text) :
    Except DrawingError (Diagram × Outcome) :=
  match Diagram.parse text with
  | .error e => .error (.parse e)
  | .ok d => (Layout.arrange measure page d).mapError .layout

/-- A picture and the warnings that came with its layout. -/
structure Drawing where
  text : Text
  warnings : List Overflow
deriving DecidableEq, Repr

/-- The picture of a text. -/
def Drawing.ofText (measure : Measure) (page : Page) (style : Style) (text : Text) :
    Except DrawingError Drawing :=
  match Diagram.ofText measure page text with
  | .error e => .error e
  | .ok (d, outcome) =>
    match Picture.paint style outcome.headerOffset d with
    | .error e => .error (.paint e)
    | .ok text => .ok { text, warnings := outcome.warnings }

/-! ### On the canvas -/

/-- The cells of the canvas that a text is drawn on. A picture of nobody takes no
canvas. -/
def Drawing.area (measure : Measure) (page : Page) (style : Style) (text : Text) : Nat :=
  match Diagram.ofText measure page text with
  | .error _ => 0
  | .ok (d, outcome) =>
    match Picture.placeAll d outcome.headerOffset style with
    | .error _ => 0
    | .ok placed =>
      if d.cast.isEmpty then 0
      else Picture.canvasWidth d style placed * Picture.canvasHeight d outcome.headerOffset style

/-- The activation boxes of the last actor stay within its header and the margin
on a terminal page, or that actor sends a message to itself. -/
def Diagram.BoxesFit (style : Style) (d : Diagram) : Prop :=
  ∀ name ∈ d.cast.names.getLast?,
    style.boxReach ≤ (name.length + 1) / 2 + 3 ∨ ∃ m ∈ d.messages, m.source = name ∧ m.target = name

instance (style : Style) (d : Diagram) : Decidable (d.BoxesFit style) := by
  unfold Diagram.BoxesFit
  infer_instance

end SequenceDiagram
