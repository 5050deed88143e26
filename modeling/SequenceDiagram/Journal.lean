import SequenceDiagram.Drawing
import SequenceDiagram.Text.Quoted

/-!
The journal: what is worth telling while a text is read, arranged and painted. Entries are values; the
journal of a step follows from what goes into the step and what comes out, so no step has to keep one.
-/

namespace SequenceDiagram

/-- An entry of the journal. -/
inductive Entry where
  /-- The diagram ended at an empty line. -/
  | blankLine (line : Nat)
  /-- A diagram was read. -/
  | parsed (actors messages lines : Nat)
  /-- A header takes its share of the page or more. -/
  | wideHeader (header : Overflow)
  /-- A message found too little room for its label. -/
  | widened (widening : Widening)
  /-- A picture was painted. -/
  | rendered (messages warnings rows : Nat)
  /-- A text had no picture, so the picture before it stays. -/
  | kept (error : DrawingError)
deriving DecidableEq, Repr

/-- The line for an entry: how grave it is, what happened, and the particulars. -/
def Entry.line : Entry → String
  | blankLine line => s!"DEBUG blank line ends the diagram line_no={line}"
  | parsed actors messages lines =>
    s!"DEBUG parsed diagram actors={actors} instructions={messages} line_count={lines}"
  | wideHeader header =>
    let name := String.ofList header.name.quoted
    let width := header.width
    let share := header.share
    s!"WARN actor header wider than its slot actor={name} slot_width={width} max_slot_width={share}"
  | widened widening =>
    let index := widening.index
    let columns := widening.columns
    s!"DEBUG widened slots for label instruction_index={index} required={columns}"
  | rendered messages warnings rows =>
    s!"DEBUG rendered diagram instructions={messages} warnings={warnings} rows={rows}"
  | kept error =>
    let text := error.message
    s!"DEBUG parse failed; keeping previous render error={text}"

namespace Journal

/-- The journal of reading a text. A text that is no diagram leaves none. -/
def ofParse (text : Text) : List Entry :=
  match Diagram.parse text with
  | .error _ => []
  | .ok d =>
    let size := (Diagram.body text).length
    (if size < text.lines.length then [.blankLine (size + 1)] else []) ++
      [.parsed d.cast.size d.messages.length d.lineCount]

/-- The journal of a layout. A refused one leaves none. -/
def ofArrange : Except LayoutError (Diagram × Outcome) → List Entry
  | .error _ => []
  | .ok (_, o) => o.warnings.map .wideHeader ++ o.widened.map .widened

/-- The journal of reading and arranging a text. -/
def ofDiagram (measure : Measure) (page : Page) (text : Text) : List Entry :=
  ofParse text ++
    match Diagram.parse text with
    | .error _ => []
    | .ok d => ofArrange (Layout.arrange measure page d)

/-- The journal of drawing a text. -/
def ofDrawing (measure : Measure) (page : Page) (style : Style) (text : Text) : List Entry :=
  ofDiagram measure page text ++
    match Diagram.ofText measure page text, Drawing.ofText measure page style text with
    | .ok (d, _), .ok drawing =>
      [.rendered d.messages.length drawing.warnings.length drawing.text.lines.length]
    | _, _ => []

end Journal

end SequenceDiagram
