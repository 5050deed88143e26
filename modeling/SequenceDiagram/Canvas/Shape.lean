import SequenceDiagram.Canvas.Basic

/-!
What can be drawn on a canvas. A shape is data: the position that has to lie on the canvas for the
shape to be drawn, and its footprint, the characters it writes and where. Drawing checks the one and
then writes the whole of the other, so a shape is drawn entirely or not at all.
-/

namespace SequenceDiagram

/-- A character at a position. -/
structure Spot where
  x : Nat
  y : Nat
  char : Char
deriving DecidableEq, Repr

/-- Something to draw. Two corners, or two ends, may be given in either order. -/
inductive Shape where
  /-- A single character. -/
  | dot (x y : Nat) (char : Char)
  /-- A text to the right from a position; what goes beyond the right edge is left out. -/
  | text (x y : Nat) (chars : Text)
  /-- Spaces on a rectangle. -/
  | erase (x0 y0 x1 y1 : Nat)
  /-- A horizontal stroke. -/
  | across (x0 x1 y : Nat)
  /-- A heavy horizontal bar, which is no stroke and covers what it crosses. -/
  | heavy (x0 x1 y : Nat)
  /-- A vertical stroke. -/
  | down (x y0 y1 : Nat)
  /-- The edge of a rectangle; of one with a single row or column, a plain line. -/
  | frame (x0 y0 x1 y1 : Nat)
deriving DecidableEq, Repr

namespace Shape

/-- The numbers between two, both included, in ascending order. -/
def between (a b : Nat) : List Nat := List.range' (min a b) (max a b + 1 - min a b)

/-- The numbers strictly between two, in ascending order. -/
def inside (a b : Nat) : List Nat := List.range' (min a b + 1) (max a b - min a b - 1)

/-- The same character on a run of columns of one row. -/
def row (char : Char) (y : Nat) (xs : List Nat) : List Spot := xs.map ({ x := ·, y, char })

/-- The same character on a run of rows of one column. -/
def column (char : Char) (x : Nat) (ys : List Nat) : List Spot := ys.map ({ x, y := ·, char })

/-- The edge of a rectangle that has more than one row and more than one column. -/
def edge (left top right bottom : Nat) : List Spot :=
  row '─' top (inside left right) ++ row '─' bottom (inside left right) ++
    column '│' left (inside top bottom) ++ column '│' right (inside top bottom) ++
    [⟨left, top, '┌'⟩, ⟨right, top, '┐'⟩, ⟨left, bottom, '└'⟩, ⟨right, bottom, '┘'⟩]

/-- The characters that the shape writes on a canvas of a width. -/
def footprint (width : Nat) : Shape → List Spot
  | dot x y char => [⟨x, y, char⟩]
  | text x y chars => (chars.take (width - x)).zipIdx.map fun (char, offset) => ⟨x + offset, y, char⟩
  | erase x0 y0 x1 y1 => (between y0 y1).flatMap fun y => row ' ' y (between x0 x1)
  | across x0 x1 y => row '─' y (between x0 x1)
  | heavy x0 x1 y => row '═' y (between x0 x1)
  | down x y0 y1 => column '│' x (between y0 y1)
  | frame x0 y0 x1 y1 =>
    if y0 = y1 then row '─' y0 (between x0 x1)
    else if x0 = x1 then column '│' x0 (between y0 y1)
    else edge (min x0 x1) (min y0 y1) (max x0 x1) (max y0 y1)

/-- The position that an error names if the shape does not lie on the canvas: the far corner, or
where a text begins. -/
def anchor : Shape → Nat × Nat
  | dot x y _ => (x, y)
  | text x y _ => (x, y)
  | erase x0 y0 x1 y1 => (max x0 x1, max y0 y1)
  | across x0 x1 y => (max x0 x1, y)
  | heavy x0 x1 y => (max x0 x1, y)
  | down x y0 y1 => (x, max y0 y1)
  | frame x0 y0 x1 y1 => (max x0 x1, max y0 y1)

/-- The shape may be drawn: its anchor lies on the canvas, or, for a text, its row does. -/
def fits (c : Canvas) : Shape → Bool
  | text _ y _ => decide (y < c.height)
  | s => c.inBounds s.anchor.1 s.anchor.2

end Shape

namespace Canvas

/-- Writes characters one after the other. -/
def putAll (c : Canvas) (spots : List Spot) : Canvas :=
  spots.foldl (fun c s => c.put s.x s.y s.char) c

/-- Draws a shape, or refuses it where it does not lie on the canvas. -/
def draw (c : Canvas) (s : Shape) : Except CanvasError Canvas :=
  if s.fits c then .ok (c.putAll (s.footprint c.width))
  else .error (c.outside s.anchor.1 s.anchor.2)

/-- Draws shapes one over the other, up to the first that is refused. -/
def drawAll (c : Canvas) (shapes : List Shape) : Except CanvasError Canvas := shapes.foldlM draw c

end Canvas

end SequenceDiagram
