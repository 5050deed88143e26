import SequenceDiagram.Canvas.Shape

/-!
Drawing cell by cell. Every character is written by itself and may be refused by itself, and a canvas
keeps what was written before a refusal. So a shape puts its corners in order and looks at the far one
before it writes anything.
-/

namespace SequenceDiagram

/-- Steps that write on a canvas. The canvas is there after a refusal as well. -/
abbrev Writing := EStateM CanvasError Canvas

namespace Writing

/-- Refuses a position that does not lie on the canvas. -/
def check (x y : Nat) : Writing Unit := do
  let c ← get
  if c.inBounds x y then return else throw (c.outside x y)

/-- Writes a character to a position. -/
def set (x y : Nat) (char : Char) : Writing Unit := do
  check x y
  modify (·.put x y char)

/-- Writes characters to the right from a position, up to the edge of the canvas. -/
def textFrom (x y : Nat) : Text → Writing Unit
  | [] => return
  | char :: rest => do
    if (← get).width ≤ x then return
    set x y char
    textFrom (x + 1) y rest

/-- Writes a text to a row of the canvas. -/
def text (x y : Nat) (chars : Text) : Writing Unit := do
  let c ← get
  if y < c.height then textFrom x y chars else throw (c.outside x y)

/-- A rectangle of cells, edges included. -/
structure Area where
  left : Nat
  top : Nat
  right : Nat
  bottom : Nat

/-- The rectangle between two corners, in whatever order they are given. -/
def Area.ofCorners (x0 y0 x1 y1 : Nat) : Area :=
  let (left, right) := if x0 ≤ x1 then (x0, x1) else (x1, x0)
  let (top, bottom) := if y0 ≤ y1 then (y0, y1) else (y1, y0)
  { left, top, right, bottom }

/-- The rectangle between two corners, refused if its far corner does not lie on the canvas. -/
def area (x0 y0 x1 y1 : Nat) : Writing Area := do
  let a := Area.ofCorners x0 y0 x1 y1
  check a.right a.bottom
  return a

/-- The numbers from a first one to a last one. -/
def upTo (first last : Nat) : List Nat := List.range' first (last + 1 - first)

/-- Writes a character to a run of columns. -/
def row (char : Char) (x0 x1 y : Nat) : Writing Unit := do
  let a ← area x0 y x1 y
  forM (upTo a.left a.right) fun x => set x y char

/-- Writes a vertical stroke to a run of rows. -/
def column (x y0 y1 : Nat) : Writing Unit := do
  let a ← area x y0 x y1
  forM (upTo a.top a.bottom) fun y => set x y '│'

/-- Writes spaces to a rectangle, row by row. -/
def erase (x0 y0 x1 y1 : Nat) : Writing Unit := do
  let a ← area x0 y0 x1 y1
  forM (upTo a.top a.bottom) fun y => forM (upTo a.left a.right) fun x => set x y ' '

/-- Writes the sides of a rectangle between its corners, two opposite cells at a time, and then its
corners. -/
def edge (a : Area) : Writing Unit := do
  forM (List.range' (a.left + 1) (a.right - (a.left + 1))) fun x => do
    set x a.top '─'
    set x a.bottom '─'
  forM (List.range' (a.top + 1) (a.bottom - (a.top + 1))) fun y => do
    set a.left y '│'
    set a.right y '│'
  set a.left a.top '┌'
  set a.right a.top '┐'
  set a.left a.bottom '└'
  set a.right a.bottom '┘'

/-- Writes the edge of a rectangle; of one with a single row or column, a plain line. -/
def frame (x0 y0 x1 y1 : Nat) : Writing Unit := do
  let a ← area x0 y0 x1 y1
  if a.top = a.bottom then row '─' a.left a.right a.top
  else if a.left = a.right then column a.left a.top a.bottom
  else edge a

/-- Draws a shape. -/
def draw : Shape → Writing Unit
  | .dot x y char => set x y char
  | .text x y chars => text x y chars
  | .erase x0 y0 x1 y1 => erase x0 y0 x1 y1
  | .across x0 x1 y => row '─' x0 x1 y
  | .heavy x0 x1 y => row '═' x0 x1 y
  | .down x y0 y1 => column x y0 y1
  | .frame x0 y0 x1 y1 => frame x0 y0 x1 y1

/-- The canvas after an attempt to draw a shape, be it drawn or refused. -/
def attempt (c : Canvas) (s : Shape) : Canvas :=
  match (draw s).run c with
  | .ok _ next => next
  | .error _ next => next

/-- The canvas after attempts to draw shapes one after the other. -/
def attemptAll (c : Canvas) (steps : List Shape) : Canvas := steps.foldl attempt c

end Writing

end SequenceDiagram
