import SequenceDiagram.Editor.Buffer

/-! What a key does to a text. Moves and all keys without a meaning leave the text
as it is, and a key that reports a change is never one of the muted keys, so no
change of the text passes a preview unseen. -/
namespace SequenceDiagram.Buffer

variable {b : Buffer} {k : Key} {column : Nat} {above below : List Text} {line : Text}

theorem lines_atStart : (atStart above line below).lines = above.reverse ++ line :: below := rfl

theorem lines_atEnd : (atEnd above line below).lines = above.reverse ++ line :: below := by
  simp [lines, Buffer.line, atEnd]

theorem lines_atColumn : (atColumn column above line below).lines = above.reverse ++ line :: below := by
  simp [lines, Buffer.line, atColumn]

theorem lines_moveLeft : b.moveLeft.lines = b.lines := by
  rw [moveLeft]
  split
  · rename_i c before found
    simp [lines, Buffer.line, found]
  · rename_i line above _ found
    rw [lines_atEnd]
    simp [lines, found]
  · rfl

theorem lines_moveRight : b.moveRight.lines = b.lines := by
  rw [moveRight]
  split
  · rename_i c after found
    simp [lines, Buffer.line, found]
  · rename_i line below _ found
    rw [lines_atStart]
    simp [lines, found]
  · rfl

theorem lines_moveUp : b.moveUp.lines = b.lines := by
  rw [moveUp]
  split
  · rename_i line above found
    rw [lines_atColumn]
    simp [lines, found]
  · rfl

theorem lines_moveDown : b.moveDown.lines = b.lines := by
  rw [moveDown]
  split
  · rename_i line below found
    rw [lines_atColumn]
    simp [lines, found]
  · rfl

/-- A key that reports no change leaves every line as it was. -/
theorem lines_press (unchanged : (b.press k).1 = false) : (b.press k).2.lines = b.lines := by
  cases k with
  | char _ | tab | enter => cases unchanged
  | backspace =>
    have refused : b.eraseBefore? = none := by simpa [press] using unchanged
    rw [press, refused, Option.getD_none]
  | delete =>
    have refused : b.eraseAfter? = none := by simpa [press] using unchanged
    rw [press, refused, Option.getD_none]
  | left => exact lines_moveLeft
  | right => exact lines_moveRight
  | up => exact lines_moveUp
  | down => exact lines_moveDown
  | lineStart => exact lines_atStart
  | lineEnd => exact lines_atEnd
  | escape | capsLock | modifier | other => rfl

theorem text_press (unchanged : (b.press k).1 = false) : (b.press k).2.text = b.text := by
  rw [text, text, lines_press unchanged]

/-- A key that changes the text is not muted. -/
theorem not_muted_of_changed (changed : (b.press k).1 = true) : k.isMuted = false := by
  cases k with
  | char _ | tab | enter | backspace | delete => rfl
  | left | right | up | down | lineStart | lineEnd | escape | capsLock | modifier | other => cases changed

end SequenceDiagram.Buffer
