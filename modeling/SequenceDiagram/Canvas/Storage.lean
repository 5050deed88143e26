import SequenceDiagram.Canvas.Shape
import SequenceDiagram.Canvas.Basic

/-!
A canvas as it is stored. The plain characters are kept in one list and the arms in another, row by
row, and a cell is looked up by its number in each of them. Nothing sees to it that the lists are as
long as the size of the canvas asks, so every look-up and every change may miss its entry. A miss is an
end of its own, apart from the refusal of a position.

To print a stored canvas means to look every position up. The text grows at its end, and a newline
follows each row but the last, so a canvas without rows and one with a single row and no columns print
the same empty text.
-/

namespace SequenceDiagram

/-- The size of a canvas and its two lists. -/
structure Storage where
  width : Nat
  height : Nat
  chars : Array Char
  arms : Array Arms
deriving DecidableEq, Repr

/-- Why a step on a stored canvas ends before it is done. -/
inductive Halt where
  /-- The position does not lie on the canvas. -/
  | refused (error : CanvasError)
  /-- A list has no entry with the number. -/
  | missed (number : Nat)
deriving DecidableEq, Repr

/-- Steps on a stored canvas. The canvas is there after they end early as well. -/
abbrev Storing := EStateM Halt Storage

/-- A stored canvas with the same character on every cell. -/
def Storage.filled (width height : Nat) (fill : Char) : Except CanvasError Storage :=
  if width * height ≤ Canvas.maxArea then
    .ok { width, height, chars := Array.replicate (width * height) fill, arms := Array.replicate (width * height) .none }
  else .error (.areaOverflow width height)

/-- The two lists of a canvas. -/
def Storage.ofCanvas (c : Canvas) : Storage :=
  { width := c.width, height := c.height, chars := c.cells.map Cell.char, arms := c.cells.map Cell.arms }

/-- The far corner of a shape lies on the canvas, or, for a text, its row does. -/
def Storage.admits (s : Storage) : Shape → Bool
  | .text _ y _ => decide (y < s.height)
  | shape => decide (shape.anchor.1 < s.width) && decide (shape.anchor.2 < s.height)

namespace Storing

/-- Refuses a position that does not lie on the canvas. -/
def refuse {α : Type} (x y : Nat) : Storing α := do
  let s ← get
  throw (.refused (.outOfBounds x y s.width s.height))

/-- The number of a position's cell. -/
def numberOf (x y : Nat) : Storing Nat := do
  let s ← get
  if x < s.width ∧ y < s.height then return y * s.width + x else refuse x y

/-- The plain character with a number. -/
def charAt (number : Nat) : Storing Char := do
  match (← get).chars[number]? with
  | some char => return char
  | none => throw (.missed number)

/-- The arms with a number. -/
def armsAt (number : Nat) : Storing Arms := do
  match (← get).arms[number]? with
  | some arms => return arms
  | none => throw (.missed number)

/-- Changes the plain character with a number. -/
def putChar (number : Nat) (char : Char) : Storing Unit := do
  let s ← get
  if number < s.chars.size then set { s with chars := s.chars.setIfInBounds number char }
  else throw (.missed number)

/-- Changes the arms with a number. -/
def putArms (number : Nat) (arms : Arms) : Storing Unit := do
  let s ← get
  if number < s.arms.size then set { s with arms := s.arms.setIfInBounds number arms }
  else throw (.missed number)

/-- Writes a character to a position: a stroke joins the arms, any other character takes the cell. -/
def write (x y : Nat) (char : Char) : Storing Unit := do
  let number ← numberOf x y
  match Arms.ofChar? char with
  | some more =>
    let arms ← armsAt number
    putArms number (arms.union more)
  | none =>
    putChar number char
    putArms number .none

/-- Whether a neighbour is there and has the arm that meets the one on this side. -/
def met (there : Bool) (x y : Nat) (side : Side) : Storing Bool := do
  if there then
    let arms ← armsAt (y * (← get).width + x)
    return arms.has side.opposite
  else return false

/-- Those of the arms at a position that meet an arm of the neighbour. -/
def joined (x y : Nat) (arms : Arms) : Storing Arms := do
  let s ← get
  let left ← met (arms.left && decide (0 < x)) (x - 1) y .left
  let right ← met (arms.right && decide (x + 1 < s.width)) (x + 1) y .right
  let up ← met (arms.up && decide (0 < y)) x (y - 1) .up
  let down ← met (arms.down && decide (y + 1 < s.height)) x (y + 1) .down
  return { left, right, up, down }

/-- The character that a position shows. -/
def look (x y : Nat) : Storing Char := do
  let number ← numberOf x y
  let arms ← armsAt number
  if arms.isEmpty then charAt number
  else
    let joined ← joined x y arms
    return if joined.isEmpty then arms.glyph else joined.glyph

/-- Draws a shape: its far corner is looked at, then its characters are written one after the other. -/
def draw (shape : Shape) : Storing Unit := do
  let s ← get
  if s.admits shape then forM (shape.footprint s.width) fun spot => write spot.x spot.y spot.char
  else refuse shape.anchor.1 shape.anchor.2

/-- The stored canvas after an attempt to draw a shape, whatever its end. -/
def attempt (s : Storage) (shape : Shape) : Storage :=
  match (draw shape).run s with
  | .ok _ next => next
  | .error _ next => next

/-- The stored canvas after attempts to draw shapes one after the other. -/
def attemptAll (s : Storage) (steps : List Shape) : Storage := steps.foldl attempt s

end Storing

/-! ### Printing -/

namespace Text

/-- The lines of a printed text: its pieces between newlines. The empty text has none. A carriage
return is a character like any other, and a newline at the end has an empty line behind it. -/
def printedLines (t : Text) : List Text := if t.isEmpty then [] else t.split

/-- The lines with spaces at their ends up to a width, and lines of spaces below them up to a height. -/
def padTo (width height : Nat) (ls : List Text) : List Text :=
  (ls.map (List.rightpad width ' ')).rightpad height (List.replicate width ' ')

/-- The lines after the last one is taken away for as long as it is empty. -/
def popEmpty (ls : List Text) : List Text :=
  if ls.getLast? = some [] then popEmpty ls.dropLast else ls
termination_by ls.length
decreasing_by
  rename_i last
  rw [List.length_dropLast]
  exact Nat.sub_lt (List.length_pos_of_mem (List.mem_of_getLast? last)) Nat.one_pos

end Text

namespace Storing

/-- Prints a row at the end of a text. -/
def printRow (out : Text) (y : Nat) : Storing Text := do
  let s ← get
  let out ← (List.range s.width).foldlM (fun out x => return out ++ [← look x y]) out
  return if y + 1 < s.height then out ++ ['\n'] else out

/-- Prints the canvas. -/
def print : Storing Text := do
  let s ← get
  (List.range s.height).foldlM printRow []

/-- Prints the canvas without the spaces at the ends of lines and the empty lines below. -/
def printTrimmed : Storing Text := do
  let out ← print
  return .join (Text.popEmpty (out.split.map (Text.dropEndWhile (· == ' '))))

end Storing

end SequenceDiagram
