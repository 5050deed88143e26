import SequenceDiagram.Text.Basic

/-!
The text under a cursor, and the keys that edit it. A buffer holds what lies on the four sides of the
cursor: the lines above, the characters before and after it on its line, and the lines below. The cursor
always stands in the text, then, and an edit touches only what lies next to it.
-/

namespace SequenceDiagram

/-- A key. -/
inductive Key where
  /-- A key that types a character. -/
  | char (c : Char)
  | tab
  | enter
  | backspace
  | delete
  | left
  | right
  | up
  | down
  | lineStart
  | lineEnd
  | escape
  | capsLock
  /-- A key that is held while others are pressed. -/
  | modifier
  /-- Any other key; none of them does anything. -/
  | other
deriving DecidableEq, Repr

/-- The key moves the cursor or changes how other keys work, and is no reason to draw anew. -/
def Key.isMuted : Key → Bool
  | .left | .right | .up | .down | .modifier | .capsLock => true
  | _ => false

/-- A text and a position in it. -/
structure Buffer where
  /-- The lines above the cursor's, the nearest first. -/
  above : List Text := []
  /-- The characters before the cursor on its line, the nearest first. -/
  before : Text := []
  /-- The characters after the cursor on its line. -/
  after : Text := []
  /-- The lines below the cursor's. -/
  below : List Text := []
deriving DecidableEq, Repr

namespace Buffer

/-- The line that the cursor stands on. -/
def line (b : Buffer) : Text := b.before.reverse ++ b.after

/-- All lines from the top. -/
def lines (b : Buffer) : List Text := b.above.reverse ++ b.line :: b.below

/-- The whole text. -/
def text (b : Buffer) : Text := .join b.lines

/-- The number of lines above the cursor. -/
def row (b : Buffer) : Nat := b.above.length

/-- The number of characters before the cursor on its line. -/
def column (b : Buffer) : Nat := b.before.length

/-- The cursor at the start of a line. -/
def atStart (above : List Text) (line : Text) (below : List Text) : Buffer :=
  { above, before := [], after := line, below }

/-- The cursor at the end of a line. -/
def atEnd (above : List Text) (line : Text) (below : List Text) : Buffer :=
  { above, before := line.reverse, after := [], below }

/-- The cursor at a column of a line, or at its end if the line is shorter. -/
def atColumn (column : Nat) (above : List Text) (line : Text) (below : List Text) : Buffer :=
  { above, before := (line.take column).reverse, after := line.drop column, below }

/-- A text with the cursor at its end. A newline at the end of the text begins no further line. -/
def ofText (t : Text) : Buffer :=
  match t.lines.reverse with
  | [] => {}
  | last :: above => atEnd above last []

/-- Types a character. -/
def insert (b : Buffer) (c : Char) : Buffer := { b with before := c :: b.before }

/-- Cuts the line at the cursor, which goes to the start of the second part. -/
def breakLine (b : Buffer) : Buffer := atStart (b.before.reverse :: b.above) b.after b.below

/-- Takes away the character before the cursor, or joins the line to the one above. -/
def eraseBefore? (b : Buffer) : Option Buffer :=
  match b.before, b.above with
  | _ :: before, _ => some { b with before }
  | [], line :: above => some { b with above, before := line.reverse }
  | [], [] => none

/-- Takes away the character after the cursor, or joins the line below to this one. -/
def eraseAfter? (b : Buffer) : Option Buffer :=
  match b.after, b.below with
  | _ :: after, _ => some { b with after }
  | [], line :: below => some { b with after := line, below }
  | [], [] => none

/-- One character back, from the start of a line to the end of the one above. -/
def moveLeft (b : Buffer) : Buffer :=
  match b.before, b.above with
  | c :: before, _ => { b with before, after := c :: b.after }
  | [], line :: above => atEnd above line (b.line :: b.below)
  | [], [] => b

/-- One character on, from the end of a line to the start of the one below. -/
def moveRight (b : Buffer) : Buffer :=
  match b.after, b.below with
  | c :: after, _ => { b with before := c :: b.before, after }
  | [], line :: below => atStart (b.line :: b.above) line below
  | [], [] => b

/-- One line up in the same column, as far as that line goes. -/
def moveUp (b : Buffer) : Buffer :=
  match b.above with
  | line :: above => atColumn b.column above line (b.line :: b.below)
  | [] => b

/-- One line down in the same column, as far as that line goes. -/
def moveDown (b : Buffer) : Buffer :=
  match b.below with
  | line :: below => atColumn b.column (b.line :: b.above) line below
  | [] => b

/-- The buffer after a key, and whether the key changed the text. -/
def press (b : Buffer) (k : Key) : Bool × Buffer :=
  match k with
  | .char c => (true, b.insert c)
  | .tab => (true, b.insert ' ')
  | .enter => (true, b.breakLine)
  | .backspace => (b.eraseBefore?.isSome, b.eraseBefore?.getD b)
  | .delete => (b.eraseAfter?.isSome, b.eraseAfter?.getD b)
  | .left => (false, b.moveLeft)
  | .right => (false, b.moveRight)
  | .up => (false, b.moveUp)
  | .down => (false, b.moveDown)
  | .lineStart => (false, atStart b.above b.line b.below)
  | .lineEnd => (false, atEnd b.above b.line b.below)
  | .escape | .capsLock | .modifier | .other => (false, b)

end Buffer

end SequenceDiagram
