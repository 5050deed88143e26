import SequenceDiagram.Text.Basic

/-!
What a layout is made for: the page it goes on and the widths that texts take there. A measure may be
any three functions. `Measure.cells` counts characters; `Measure.terminal` adds what a picture draws
around each label. `SequenceDiagram.Layout.Counted` adds the same up in words that end somewhere.
-/

namespace SequenceDiagram

/-- The columns that texts need. -/
structure Measure where
  /-- The width of a name in a header. -/
  header : Text → Nat
  /-- The distance that a label needs between the centre lines of two actors. -/
  message : Text → Nat
  /-- The distance that the label of a message to oneself needs to the next centre line. -/
  loop : Text → Nat := message

namespace Measure

/-- One column for each character. -/
def cells : Measure := { header := List.length, message := List.length }

/-- The blank columns kept between a label and what is drawn beside it. -/
def labelPad : Nat := 1

/-- The columns from the edge of a box to the corner of a loop. -/
def loopReach : Nat := 3

/-- One column for each character, and for a label the columns of what is drawn around it where
activation boxes reach `boxReach` columns to each side of a lifeline: the two half boxes, a blank
beside each, and for a loop its bars. -/
def terminal (boxReach : Nat) : Measure where
  header := List.length
  message label := label.length + 2 * (boxReach + labelPad) + 1
  loop label := label.length + 2 * (boxReach + labelPad) + loopReach + 1

end Measure

/-- The page that headers are placed on. -/
structure Page where
  /-- The columns that all headers share. -/
  width : Nat := 800
  /-- The columns around a name and between headers, and the rows above the headers. -/
  gutter : Nat := 10
  /-- The rows of a header. -/
  lineHeight : Nat := 25
deriving DecidableEq, Repr

namespace Page

/-- A page of character cells, with headers three rows high. -/
def terminal (width : Nat) : Page := { width, gutter := 2, lineHeight := 3 }

end Page

end SequenceDiagram
