import SequenceDiagram.Counting
import SequenceDiagram.Editor.Session

/-!
A session on the screen: the text in a pane on the left, the picture in a pane on the right, and
below both a row with the notice, or with a reminder of the keys where there is none. What does not
fit into its place is cut off; only the text pane scrolls, as far as its cursor's line needs.

A text pane can be drawn into any area of a screen. Its columns and rows are words of sixteen bits there,
and a sum past the greatest of them is no place for the cursor.
-/

namespace SequenceDiagram

/-- Exactly `width` characters: the first ones of a text, filled up where there are fewer. -/
def Text.pad (fill : Char) (width : Nat) (t : Text) : Text :=
  t.take width ++ List.replicate (width - t.length) fill

/-- A bordered part of the screen. -/
structure Pane where
  title : Text
  /-- The lines from the first one shown on. -/
  content : List Text
  width : Nat
  height : Nat

namespace Pane

/-- The columns between the borders. -/
def innerWidth (p : Pane) : Nat := p.width - 2

/-- A row between two border characters. In a single column there is place for the left one only. -/
def bordered (p : Pane) (left right fill : Char) (inner : Text) : Text :=
  (left :: inner.pad fill p.innerWidth ++ [right]).take p.width

/-- The row at a height, from the top. A pane of a single row shows its top. -/
def row (p : Pane) (y : Nat) : Text :=
  if y = 0 then p.bordered '┌' '┐' '─' p.title
  else if y + 1 = p.height then p.bordered '└' '┘' '─' []
  else p.bordered '│' '│' ' ' (p.content[y - 1]?.getD [])

/-- All rows of the pane. -/
def rows (p : Pane) : List Text := (List.range p.height).map p.row

end Pane

/-- What a screen shows. -/
structure Screen where
  rows : List Text
  /-- The column of the cursor. -/
  cursorX : Nat
  /-- The row of the cursor. -/
  cursorY : Nat
deriving DecidableEq, Repr

namespace Session

/-- The reminder of what there is to type. -/
def help : Text := "Esc quit · A -> B: label · <- <= => arrows · /X ends X · X/ one-shot".toList

/-- The columns of the text pane: a fifth of the screen, rounded to the nearest. -/
def inputWidth (screenWidth : Nat) : Nat := (screenWidth + 2) / 5

/-- The lines scrolled out of a text pane of a height: just as many as the cursor's line needs. -/
def scroll (s : Session) (paneHeight : Nat) : Nat := s.buffer.row - (max (paneHeight - 2) 1 - 1)

/-- The text pane. -/
def inputPane (s : Session) (width height : Nat) : Pane where
  title := "Input".toList
  content := s.buffer.text.lines.drop (s.scroll height)
  width
  height

/-- The picture's pane. -/
def diagramPane (s : Session) (width height : Nat) : Pane where
  title := "Diagram".toList
  content := (s.preview.picture.getD []).lines
  width
  height

/-- The cursor in a text pane at the top left of the screen; in one without room inside it rests in
the corner. -/
def cursorIn (s : Session) (p : Pane) : Nat × Nat :=
  if 2 < p.width ∧ 2 < p.height then
    (1 + min s.buffer.column (p.width - 3), 1 + (s.buffer.row - s.scroll p.height))
  else (0, 0)

/-- The screen of a size that the session is drawn on. -/
def screen (s : Session) (width height : Nat) : Screen :=
  let left := s.inputPane (inputWidth width) (height - 1)
  let right := s.diagramPane (width - inputWidth width) (height - 1)
  let notice := s.preview.notice.getD help
  let (cursorX, cursorY) := s.cursorIn left
  { rows := left.rows.zipWith (· ++ ·) right.rows ++ [notice.pad ' ' width], cursorX, cursorY }

end Session

/-! ### In an area of the screen -/

/-- A number that fits a word of sixteen bits. -/
def word? (number : Nat) : Option Nat := (Counting.upTo (UInt16.size - 1)).count? number

/-- The number, or the greatest word if it does not fit one. -/
def nearestWord (number : Nat) : Nat := min number (UInt16.size - 1)

/-- An area of a screen. -/
structure Area where
  left : UInt16
  top : UInt16
  width : UInt16
  height : UInt16

/-- The area does not reach beyond a screen of this size. -/
structure Area.LiesOn (a : Area) (screenWidth screenHeight : UInt16) : Prop where
  across : a.left.toNat + a.width.toNat ≤ screenWidth.toNat
  down : a.top.toNat + a.height.toNat ≤ screenHeight.toNat

namespace Session

/-- The lines scrolled out of an area. -/
def scroll? (s : Session) (a : Area) : Option Nat := do
  let others ← minus? (max (a.height.toNat - 2) 1) 1
  return s.buffer.row - others

/-- The text pane as it is drawn into an area, scrolled by a word. -/
def paneIn? (s : Session) (a : Area) : Option Pane := do
  let scroll ← s.scroll? a
  return {
    title := "Input".toList
    content := s.buffer.text.lines.drop (nearestWord scroll)
    width := a.width.toNat
    height := a.height.toNat }

/-- Where the cursor is put for a text pane in an area, if it is. -/
def cursorAt? (s : Session) (a : Area) : Option (Option (Nat × Nat)) := do
  let scroll ← s.scroll? a
  if 2 < a.width ∧ 2 < a.height then
    let firstColumn ← word? (a.left.toNat + 1)
    let furthest ← minus? a.width.toNat 3
    let x ← word? (firstColumn + min (nearestWord s.buffer.column) furthest)
    let firstRow ← word? (a.top.toNat + 1)
    let below ← minus? s.buffer.row scroll
    let y ← word? (firstRow + (word? below).getD 0)
    return some (x, y)
  else return none

end Session

end SequenceDiagram
