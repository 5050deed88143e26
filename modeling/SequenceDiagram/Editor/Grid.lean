import SequenceDiagram.Editor.Buffer

/-!
The text under a cursor by numbers: all lines, a row and a column. Whoever edits like this looks lines
and characters up by their number and may find none; every operation here has a result only if all that
it looks up is there.
-/

namespace SequenceDiagram

/-- The lines of a text with a row and a column. -/
structure Grid where
  lines : List Text
  row : Nat
  column : Nat
deriving DecidableEq, Repr

namespace Grid

/-- The line of the row, if there is one and the column lies in it or at its end. -/
def line? (g : Grid) : Option Text := g.lines[g.row]?.filter (g.column ≤ ·.length)

def insert? (g : Grid) (c : Char) : Option Grid := do
  let line ← g.line?
  return { g with
    lines := g.lines.set g.row (line.take g.column ++ c :: line.drop g.column)
    column := g.column + 1 }

def breakLine? (g : Grid) : Option Grid := do
  let line ← g.line?
  return {
    lines := g.lines.take g.row ++ line.take g.column :: line.drop g.column :: g.lines.drop (g.row + 1)
    row := g.row + 1
    column := 0 }

/-- The grid with the line of a row joined to the one above, and the column between the two. -/
def joinAbove? (g : Grid) (row : Nat) : Option Grid := do
  let line ← g.lines[row]?
  let tail ← g.lines[row + 1]?
  return { lines := (g.lines.eraseIdx (row + 1)).set row (line ++ tail), row, column := line.length }

/-- Takes away the character before the column, or joins the line to the one above: whether it did, and
the grid afterwards. -/
def eraseBefore? (g : Grid) : Option (Bool × Grid) := do
  let line ← g.line?
  if 0 < g.column then
    return (true, { g with
      lines := g.lines.set g.row (line.take (g.column - 1) ++ line.drop g.column)
      column := g.column - 1 })
  else if g.row = 0 then return (false, g)
  else return (true, ← g.joinAbove? (g.row - 1))

/-- Takes away the character after the column, or joins the line below to this one: whether it did, and
the grid afterwards. -/
def eraseAfter? (g : Grid) : Option (Bool × Grid) := do
  let line ← g.line?
  if g.column < line.length then
    return (true, { g with
      lines := g.lines.set g.row (line.take g.column ++ line.drop (g.column + 1)) })
  else if g.lines.length ≤ g.row + 1 then return (false, g)
  else return (true, ← g.joinAbove? g.row)

def moveLeft? (g : Grid) : Option Grid := do
  if 0 < g.column then return { g with column := g.column - 1 }
  else if g.row = 0 then return g
  else
    let line ← g.lines[g.row - 1]?
    return { g with row := g.row - 1, column := line.length }

def moveRight? (g : Grid) : Option Grid := do
  let line ← g.line?
  if g.column < line.length then return { g with column := g.column + 1 }
  else if g.row + 1 < g.lines.length then return { g with row := g.row + 1, column := 0 }
  else return g

/-- The cursor in another row, in the same column or at the end of a shorter line. -/
def moveTo? (g : Grid) (row : Nat) : Option Grid := do
  let line ← g.lines[row]?
  return { g with row, column := min g.column line.length }

/-- The grid after a key, and whether the key changed the text. -/
def press? (g : Grid) : Key → Option (Bool × Grid)
  | .char c => do return (true, ← g.insert? c)
  | .tab => do return (true, ← g.insert? ' ')
  | .enter => do return (true, ← g.breakLine?)
  | .backspace => g.eraseBefore?
  | .delete => g.eraseAfter?
  | .left => do return (false, ← g.moveLeft?)
  | .right => do return (false, ← g.moveRight?)
  | .up => do if g.row = 0 then return (false, g) else return (false, ← g.moveTo? (g.row - 1))
  | .down => do
    if g.lines.length ≤ g.row + 1 then return (false, g) else return (false, ← g.moveTo? (g.row + 1))
  | .lineStart => some (false, { g with column := 0 })
  | .lineEnd => do
    let line ← g.lines[g.row]?
    return (false, { g with column := line.length })
  | .escape | .capsLock | .modifier | .other => some (false, g)

end Grid

/-- The lines of a buffer with the row and the column of its cursor. -/
def Buffer.grid (b : Buffer) : Grid := ⟨b.lines, b.row, b.column⟩

end SequenceDiagram
