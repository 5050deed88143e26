import SequenceDiagram.Editor.Grid
import SequenceDiagram.Proofs.Editor.Typing

/-! Rows and columns by number. The cursor of a buffer always stands in one of its
lines, so looking up what is next to it by row and column finds everything, and
editing by number comes to the same. -/
namespace SequenceDiagram.Buffer

variable {b : Buffer} {k : Key} {c : Char}

theorem joinAbove?_eq (above below : List Text) (upper lower : Text) (row column : Nat) :
    (⟨above.reverse ++ upper :: lower :: below, row, column⟩ : Grid).joinAbove? above.length =
      some ⟨above.reverse ++ (upper ++ lower) :: below, above.length, upper.length⟩ := by
  have past : ¬above.length + 1 < above.length := by omega
  simp [Grid.joinAbove?, List.eraseIdx_append, past]

@[simp]
theorem line?_grid (b : Buffer) : b.grid.line? = some b.line := by
  have there : b.grid.lines[b.row]? = some b.line := by simp [grid, lines, row]
  have inside : b.grid.column ≤ b.line.length := by simp [grid, column, line]
  unfold Grid.line?
  rw [show b.grid.row = b.row from rfl, there, Option.filter_some, if_pos (decide_eq_true inside)]

theorem grid_insert : b.grid.insert? c = some (b.insert c).grid := by
  simp only [Grid.insert?, line?_grid]
  simp [grid, lines, line, row, column, insert]

theorem grid_breakLine : b.grid.breakLine? = some b.breakLine.grid := by
  simp only [Grid.breakLine?, line?_grid]
  simp [grid, lines, line, row, column, breakLine, atStart, List.drop_append]

theorem grid_eraseBefore : b.grid.eraseBefore? = some (b.eraseBefore?.isSome, (b.eraseBefore?.getD b).grid) := by
  simp only [Grid.eraseBefore?, line?_grid]
  obtain ⟨above, before, after, below⟩ := b
  cases before with
  | cons c before => simp [grid, lines, line, row, column, eraseBefore?, List.drop_append]
  | nil =>
    cases above with
    | nil => simp [grid, lines, line, row, column, eraseBefore?]
    | cons top above => simp [grid, lines, line, row, column, eraseBefore?, joinAbove?_eq]

theorem grid_eraseAfter : b.grid.eraseAfter? = some (b.eraseAfter?.isSome, (b.eraseAfter?.getD b).grid) := by
  simp only [Grid.eraseAfter?, line?_grid]
  obtain ⟨above, before, after, below⟩ := b
  cases after with
  | cons c after => simp [grid, lines, line, row, column, eraseAfter?, List.drop_append]
  | nil =>
    cases below with
    | nil => simp [grid, lines, line, row, column, eraseAfter?]
    | cons next below => simp [grid, lines, line, row, column, eraseAfter?, joinAbove?_eq]

theorem grid_moveLeft : b.grid.moveLeft? = some b.moveLeft.grid := by
  obtain ⟨above, before, after, below⟩ := b
  cases before with
  | cons c before => simp [Grid.moveLeft?, grid, lines, line, row, column, moveLeft]
  | nil => cases above <;> simp [Grid.moveLeft?, grid, lines, line, row, column, moveLeft, atEnd]

theorem grid_moveRight : b.grid.moveRight? = some b.moveRight.grid := by
  simp only [Grid.moveRight?, line?_grid]
  obtain ⟨above, before, after, below⟩ := b
  cases after with
  | cons c after => simp [grid, lines, line, row, column, moveRight]
  | nil => cases below <;> simp [grid, lines, line, row, column, moveRight, atStart]

/-- Editing by row and column finds all that it looks up and does what editing under
the cursor does. -/
theorem grid_press (b : Buffer) (k : Key) : b.grid.press? k = some ((b.press k).1, (b.press k).2.grid) := by
  cases k with
  | char c => simp [Grid.press?, grid_insert, press]
  | tab => simp [Grid.press?, grid_insert, press]
  | enter => simp [Grid.press?, grid_breakLine, press]
  | backspace => exact grid_eraseBefore
  | delete => exact grid_eraseAfter
  | left => simp [Grid.press?, grid_moveLeft, press]
  | right => simp [Grid.press?, grid_moveRight, press]
  | up =>
    obtain ⟨above, before, after, below⟩ := b
    cases above <;> simp [Grid.press?, Grid.moveTo?, grid, lines, line, row, column, press, moveUp, atColumn]
  | down =>
    obtain ⟨above, before, after, below⟩ := b
    cases below <;> simp [Grid.press?, Grid.moveTo?, grid, lines, line, row, column, press, moveDown, atColumn]
  | lineStart => simp [Grid.press?, grid, lines, line, row, column, press, atStart]
  | lineEnd => simp [Grid.press?, grid, lines, line, row, column, press, atEnd, Nat.add_comm]
  | escape | capsLock | modifier | other => rfl

end SequenceDiagram.Buffer
