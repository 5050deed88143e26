import SequenceDiagram.Layout.Page

/-!
The course of a message across the columns: a bar between two lifelines, or a loop beside one, each
with its label. The label of a bar stands centred between the two activation boxes, the label of a
loop right of the corner; both keep a blank column to whatever is drawn beside them. A label that does
not fit the room it is given is cut short, with the last column of the room showing that something is
missing.
-/

namespace SequenceDiagram

/-- How a picture is drawn. -/
structure Style where
  /-- The rows from one message to the next; none counts as one. -/
  rowHeight : Nat := 2
  /-- The columns that an activation box reaches to each side of its lifeline. -/
  boxReach : Nat := 1
deriving DecidableEq, Repr

/-- The measure that leaves room for everything that is drawn around a label in this style. -/
def Style.measure (s : Style) : Measure := .terminal s.boxReach

/-- The text in at most `room` columns. -/
def Text.fit (room : Nat) (t : Text) : Text :=
  if t.length ≤ room then t
  else if room = 0 then []
  else t.take (room - 1) ++ ['…']

example : Text.fit 3 "hello".toList = "he…".toList := by decide

/-- A text and the column that it starts at. -/
structure Label where
  column : Nat
  text : Text
deriving DecidableEq, Repr

namespace Label

/-- The first column right of the label. -/
def stop (l : Label) : Nat := l.column + l.text.length

/-- Nothing of the label is left to show. -/
def isEmpty (l : Label) : Bool := l.text.isEmpty

/-- The label of a bar between the lifelines at columns `left` and `right`: inside the half boxes on
either side and a blank column beside each. -/
def ofBar (boxReach left right : Nat) (t : Text) : Label :=
  let inset := boxReach + Measure.labelPad + 1
  let start := left + inset
  let room := right + 1 - (start + inset)
  let text := t.fit room
  { column := start + (room - text.length) / 2, text }

end Label

/-- The columns of a bar, both ends included, from left to right. -/
structure Bar where
  start : Nat
  stop : Nat
  /-- The end that the message runs to, where its head stands. -/
  rightward : Bool
deriving DecidableEq, Repr

namespace Bar

/-- The bar between the lifelines at columns `left` and `right`. It keeps clear of the activation boxes
where there is room for that. At its tail it begins on the box edge, so that a stroke joins it; its
head stops one column short of the other edge. -/
def between (boxReach left right : Nat) (rightward : Bool) : Bar :=
  let apart := 2 * boxReach + 1 < right - left
  let leftEnd := if apart then left + boxReach else left
  let rightEnd := if apart then right - boxReach else right
  if rightward then { start := leftEnd, stop := rightEnd - 1, rightward }
  else { start := leftEnd + 1, stop := rightEnd, rightward }

/-- The column of the head. -/
def headColumn (b : Bar) : Nat := if b.rightward then b.stop else b.start

end Bar

/-- The loop of a message that an actor sends to itself. -/
structure Loop where
  /-- The column of the box edge that the loop leaves from. -/
  start : Nat
  /-- The column where the loop turns back. -/
  corner : Nat
  label : Label
deriving DecidableEq, Repr

/-- The loop right of the lifeline at column `mid`, with the next lifeline at `next?`. The corner keeps
clear of the next box as long as the loop stays at least one column long. -/
def Loop.ofMid (boxReach mid : Nat) (next? : Option Nat) (t : Text) : Loop :=
  let start := mid + boxReach
  let full := start + Measure.loopReach
  let corner := match next? with
    | some next => max (min full (next - (boxReach + 1))) (start + 1)
    | none => full
  let column := corner + Measure.labelPad + 1
  let room := match next? with
    | some next => next + 1 - (column + boxReach + Measure.labelPad + 1)
    | none => t.length
  { start, corner, label := { column, text := t.fit room } }

end SequenceDiagram
