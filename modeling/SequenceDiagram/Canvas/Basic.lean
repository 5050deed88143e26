import SequenceDiagram.Canvas.Arms
import SequenceDiagram.Text.Basic

/-!
The canvas: a grid of cells of a fixed width and height. Each cell records the last plain character
written to it and the arms of all strokes written since. What it shows depends on its neighbours too:
an arm counts where the neighbour on that side has the arm that meets it. As text a canvas is its rows
from the top with a newline between each two; its picture is the same without the spaces at the ends of
lines and the empty lines at the bottom.
-/

namespace SequenceDiagram

/-- One cell of a canvas. -/
structure Cell where
  /-- The last plain character written. -/
  char : Char
  /-- The arms of the strokes written since then. -/
  arms : Arms := .none
deriving DecidableEq, Repr

namespace Cell

/-- The cell after a character is written to it: a stroke joins the arms, any other character takes
the cell for itself. -/
def write (c : Cell) (ch : Char) : Cell :=
  match Arms.ofChar? ch with
  | some arms => { c with arms := c.arms.union arms }
  | none => { char := ch }

end Cell

/-- Why a canvas cannot be made or drawn on. -/
inductive CanvasError where
  /-- The cells of a canvas this large cannot be numbered. -/
  | areaOverflow (width height : Nat)
  /-- The position lies outside the canvas. -/
  | outOfBounds (x y width height : Nat)
deriving DecidableEq, Repr

def CanvasError.message : CanvasError → String
  | areaOverflow width height => s!"canvas area overflow: {width}*{height}"
  | outOfBounds x y width height => s!"out of bounds: ({x},{y}) for {width}x{height} canvas"

/-- A grid of cells, row by row from the top. -/
structure Canvas where
  width : Nat
  height : Nat
  cells : Array Cell
  /-- There is a cell for every position. -/
  size_cells : cells.size = width * height

namespace Canvas

/-- The greatest number of cells, one less than 2⁶⁴. -/
def maxArea : Nat := 0xFFFFFFFFFFFFFFFF

/-- A canvas with the same character on every cell. -/
def filled (width height : Nat) (fill : Char) : Except CanvasError Canvas :=
  if width * height ≤ maxArea then
    .ok { width, height, cells := Array.replicate (width * height) { char := fill },
          size_cells := by simp }
  else .error (.areaOverflow width height)

/-- A canvas of spaces. -/
def blank (width height : Nat) : Except CanvasError Canvas := filled width height ' '

/-- The position lies on the canvas. -/
def inBounds (c : Canvas) (x y : Nat) : Bool := decide (x < c.width) && decide (y < c.height)

/-- The refusal of a position that does not lie on the canvas. -/
def outside (c : Canvas) (x y : Nat) : CanvasError := .outOfBounds x y c.width c.height

/-- The number of a position's cell. -/
def indexOf (c : Canvas) (x y : Nat) : Nat := y * c.width + x

/-- The cell at a position on the canvas. -/
def cell? (c : Canvas) (x y : Nat) : Option Cell :=
  if c.inBounds x y then c.cells[c.indexOf x y]? else none

/-- The canvas after a character is written to a position; a position outside leaves it as it is. -/
def put (c : Canvas) (x y : Nat) (ch : Char) : Canvas :=
  if c.inBounds x y then
    { c with cells := c.cells.modify (c.indexOf x y) (·.write ch)
             size_cells := by rw [Array.size_modify]; exact c.size_cells }
  else c

/-- The arms at a position; outside the canvas there are none. -/
def armsAt (c : Canvas) (x y : Nat) : Arms := ((c.cell? x y).map Cell.arms).getD .none

/-- The arms at the neighbouring position on a side; beyond the edge of the canvas there are none. -/
def neighbour (c : Canvas) (x y : Nat) : Side → Arms
  | .left => if 0 < x then c.armsAt (x - 1) y else .none
  | .right => c.armsAt (x + 1) y
  | .up => if 0 < y then c.armsAt x (y - 1) else .none
  | .down => c.armsAt x (y + 1)

/-- The cell has an arm on the side and its neighbour there has the arm that meets it. -/
def joins (c : Canvas) (x y : Nat) (s : Side) : Bool :=
  (c.armsAt x y).has s && (c.neighbour x y s).has s.opposite

/-- The arms of a cell that meet an arm of the neighbour. -/
def joined (c : Canvas) (x y : Nat) : Arms :=
  { left := c.joins x y .left, right := c.joins x y .right, up := c.joins x y .up, down := c.joins x y .down }

/-- What a cell at a position shows: its plain character where it holds no stroke, else the stroke
with the arms that are met, else, where none is met, the stroke with all its arms. -/
def shownBy (c : Canvas) (x y : Nat) (cell : Cell) : Char :=
  if cell.arms.isEmpty then cell.char
  else if (c.joined x y).isEmpty then cell.arms.glyph
  else (c.joined x y).glyph

/-- The character that a position shows. -/
def get (c : Canvas) (x y : Nat) : Except CanvasError Char :=
  match c.cell? x y with
  | some cell => .ok (c.shownBy x y cell)
  | none => .error (c.outside x y)

/-! ### As text -/

/-- The characters that a row shows. -/
def row (c : Canvas) (y : Nat) : Text :=
  (List.range c.width).filterMap fun x => (c.cell? x y).map (c.shownBy x y)

/-- The rows from top to bottom. -/
def rows (c : Canvas) : List Text := (List.range c.height).map c.row

/-- The whole canvas as text. -/
def display (c : Canvas) : Text := .join c.rows

/-- The canvas as text without the blanks that frame it on the right and below. -/
def picture (c : Canvas) : Text := c.display.trimLines

end Canvas

end SequenceDiagram
