import Mathlib.Data.List.Basic
import SequenceDiagram.Editor.Screen
import SequenceDiagram.Proofs.Editor.FlatText

/-! The cursor on the screen. A pane shows the lines that are read from the joined
text, and the cursor is put where the row and the column of the buffer say; the two
have to meet. A text pane is drawn into any area of a screen with sums and
differences that fail where a word would overflow. In an area with room inside none
of them fails, and the cell under the cursor shows the character that the cursor
stands before. -/
namespace SequenceDiagram

variable {t l : Text} {fill : Char} {width height i x y n : Nat} {b : Buffer} {s : Session} {p : Pane}

/-! ### What a pane shows -/

theorem Text.length_pad : (Text.pad fill width t).length = width := by
  rw [pad, List.length_append, List.length_take, List.length_replicate]
  omega

theorem Text.getElem?_pad (inside : i < width) : (Text.pad fill width t)[i]? = some (t[i]?.getD fill) := by
  rw [pad, List.getElem?_append, List.length_take]
  by_cases within : i < t.length
  · rw [if_pos (Nat.lt_min.mpr ⟨inside, within⟩), List.getElem?_take, if_pos inside, List.getElem?_eq_getElem within]
    rfl
  · rw [if_neg fun both => within (Nat.lt_min.mp both).2, List.getElem?_replicate, if_pos (by omega),
      List.getElem?_eq_none (Nat.not_lt.mp within)]
    rfl

namespace Pane

/-- The character at a column and a row of a pane. -/
def cell? (p : Pane) (x y : Nat) : Option Char := p.rows[y]?.bind (·[x]?)

theorem length_row (p : Pane) (y : Nat) : (p.row y).length = p.width := by
  have length (left right fill : Char) (inner : Text) : (p.bordered left right fill inner).length = p.width := by
    rw [bordered, List.length_take, List.length_append, List.length_cons, Text.length_pad, innerWidth,
      List.length_singleton]
    omega
  rw [row]
  split
  · exact length ..
  · split <;> exact length ..

/-- With a column between the borders nothing is cut off a row. -/
theorem bordered_of_wide (wide : 2 < p.width) (left right fill : Char) (inner : Text) :
    p.bordered left right fill inner = left :: inner.pad fill p.innerWidth ++ [right] := by
  rw [bordered, List.take_of_length_le]
  rw [List.length_append, List.length_cons, Text.length_pad, innerWidth, List.length_singleton]
  omega

theorem rows_inner (wide : 2 < p.width) (inside : y + 2 < p.height) :
    p.rows[y + 1]? = some ('│' :: (p.content[y]?.getD []).pad ' ' p.innerWidth ++ ['│']) := by
  have last : ¬y + 1 + 1 = p.height := Nat.ne_of_lt inside
  rw [rows, List.getElem?_map, List.getElem?_range (by omega), Option.map_some, row, if_neg (Nat.succ_ne_zero y),
    if_neg last, Nat.add_sub_cancel, bordered_of_wide wide]

theorem cell?_inner (across : x < p.innerWidth) (inside : y + 2 < p.height) :
    p.cell? (x + 1) (y + 1) = some ((p.content[y]?.getD [])[x]?.getD ' ') := by
  have wide : 2 < p.width := by
    rw [innerWidth] at across
    omega
  rw [cell?, rows_inner wide inside, Option.bind_some, List.cons_append, List.getElem?_cons_succ,
    List.getElem?_append_left (by rwa [Text.length_pad]), Text.getElem?_pad across]

end Pane

/-- Of lines that are joined and read again each is the same, but for a carriage return
at its end if it is not the last. -/
theorem Text.getElem?_reread (ls : List Text) (i : Nat) :
    (reread ls)[i]?.getD [] = if i + 1 = ls.length then ls[i]?.getD [] else dropReturn (ls[i]?.getD []) := by
  fun_induction reread ls generalizing i with
  | case1 => rfl
  | case2 => cases i <;> simp [dropReturn]
  | case3 last full => cases i <;> simp [dropReturn]
  | case4 l next ls ih =>
    cases i with
    | zero => simp
    | succ i => simpa using ih i

/-- The cursor's line as it is read from the text. -/
def Buffer.shownLine (b : Buffer) : Text := if b.below = [] then b.line else Text.dropReturn b.line

/-- All of the cursor's line is read, or all but a carriage return before the next line. -/
theorem Buffer.line_eq_shownLine (b : Buffer) :
    b.line = b.shownLine ∨ b.line = b.shownLine ++ ['\r'] ∧ b.below ≠ [] := by
  rw [shownLine, Text.dropReturn]
  split
  · exact .inl rfl
  · rename_i more
    split
    · rename_i ending
      obtain ⟨start, whole⟩ := List.getLast?_eq_some_iff.mp ending
      exact .inr ⟨by rw [whole, List.dropLast_concat], more⟩
    · exact .inl rfl

/-- The line in the row of the cursor is the cursor's line. -/
theorem Buffer.getElem?_lines_text (kept : b.OneLine) : b.text.lines[b.row]?.getD [] = b.shownLine := by
  have there : b.lines[b.row]?.getD [] = b.line := by simp [lines, row]
  have last : b.row + 1 = b.lines.length ↔ b.below = [] := by
    rw [lines, List.length_append, List.length_reverse, List.length_cons, row, ← List.length_eq_zero_iff]
    omega
  rw [text, Text.lines_join_eq_reread kept, Text.getElem?_reread, there, shownLine]
  simp only [last]

/-- Only the end of a text matters to the carriage return there. -/
theorem Text.dropReturn_append (full : l ≠ []) : dropReturn (t ++ l) = t ++ dropReturn l := by
  rw [dropReturn, dropReturn, List.getLast?_append_of_ne_nil t full, List.dropLast_append_of_ne_nil full]
  split <;> rfl

theorem Text.head?_dropReturn {c : Char} (other : c :: t ≠ ['\r']) : (dropReturn (c :: t)).head? = some c := by
  rw [dropReturn]
  split
  · rename_i ending
    cases t with
    | nil =>
      rw [List.getLast?_singleton, Option.some.injEq] at ending
      exact absurd (congrArg (· :: []) ending) other
    | cons d t => rfl
  · rfl

/-- The character that the cursor stands before is read from the text, unless it is a
carriage return before the next line. -/
theorem Buffer.getElem?_shownLine {c : Char} (next : b.after.head? = some c)
    (read : b.after = ['\r'] → b.below = []) : b.shownLine[b.column]? = some c := by
  obtain ⟨rest, after⟩ := List.head?_eq_some_iff.mp next
  have behind : ∀ shown : Text, (b.before.reverse ++ shown)[b.column]? = shown.head? := by
    intro shown
    rw [column, ← List.length_reverse, List.getElem?_append_right (Nat.le_refl _), Nat.sub_self,
      List.head?_eq_getElem?]
  rw [shownLine, line, after]
  split
  · rw [behind, List.head?_cons]
  · rename_i more
    rw [Text.dropReturn_append (List.cons_ne_nil c rest), behind]
    exact Text.head?_dropReturn fun alone => more (read (after.trans alone))

/-- At the end of its line the cursor stands before nothing. -/
theorem Buffer.getElem?_shownLine_end (ended : b.after = []) : b.shownLine[b.column]? = none := by
  have length : b.line.length = b.column := by rw [line, ended, List.append_nil, List.length_reverse, column]
  rw [List.getElem?_eq_none_iff, ← length]
  rcases b.line_eq_shownLine with same | ⟨cut, _⟩
  · exact Nat.le_of_eq (congrArg List.length same.symm)
  · rw [cut, List.length_append]
    exact Nat.le_add_right _ _

/-! ### Into an area of a screen -/

theorem word?_eq (fits : n < UInt16.size) : word? n = some n :=
  Counting.count?_of_holds (decide_eq_true (Nat.le_sub_one_of_lt fits))

theorem nearestWord_eq (fits : n < UInt16.size) : nearestWord n = n := Nat.min_eq_left (Nat.le_sub_one_of_lt fits)

namespace Session

variable {a : Area}

theorem scroll?_eq : s.scroll? a = some (s.scroll a.height.toNat) := by
  rw [scroll?, minus?_eq (Nat.le_max_right _ _)]
  rfl

/-- Where there is a row inside, the lines above the cursor's are scrolled out as far as
they do not fit above the last one. -/
theorem scroll_eq (s : Session) (high : 2 < height) : s.scroll height = s.buffer.row - (height - 3) := by
  rw [scroll]
  omega

/-- An area shows the pane of its size, as long as the scroll fits a word. -/
theorem paneIn?_eq (near : s.scroll a.height.toNat < UInt16.size) :
    s.paneIn? a = some (s.inputPane a.width.toNat a.height.toNat) := by
  rw [paneIn?, scroll?_eq, Option.bind_eq_bind, Option.bind_some, nearestWord_eq near]
  rfl

theorem cursorIn_eq (s : Session) (wide : 2 < width) (high : 2 < height) :
    s.cursorIn (s.inputPane width height) =
      (1 + min s.buffer.column (width - 3), 1 + (s.buffer.row - s.scroll height)) :=
  if_pos ⟨wide, high⟩

/-- The cursor is put into an area where it is in the pane of its size: no sum is too
large for a word there, and no difference is of numbers in the wrong order. -/
theorem cursorAt?_eq {screenWidth screenHeight : UInt16} (lies : a.LiesOn screenWidth screenHeight)
    (wide : 2 < a.width) (high : 2 < a.height) :
    let inside := s.cursorIn (s.inputPane a.width.toNat a.height.toNat)
    s.cursorAt? a = some (some (a.left.toNat + inside.1, a.top.toNat + inside.2)) := by
  intro inside
  have across := Nat.lt_of_le_of_lt lies.across (UInt16.toNat_lt screenWidth)
  have down := Nat.lt_of_le_of_lt lies.down (UInt16.toNat_lt screenHeight)
  have columns : 2 < a.width.toNat := UInt16.lt_iff_toNat_lt.mp wide
  have rows : 2 < a.height.toNat := UInt16.lt_iff_toNat_lt.mp high
  have scroll := s.scroll_eq rows
  have word : UInt16.size = 2 ^ 16 := rfl
  have firstColumn : word? (a.left.toNat + 1) = some (a.left.toNat + 1) := word?_eq (by omega)
  have furthest : minus? a.width.toNat 3 = some (a.width.toNat - 3) := minus?_eq columns
  have x : word? (a.left.toNat + 1 + min (nearestWord s.buffer.column) (a.width.toNat - 3)) =
      some (a.left.toNat + 1 + min s.buffer.column (a.width.toNat - 3)) := by
    have same : min (nearestWord s.buffer.column) (a.width.toNat - 3) = min s.buffer.column (a.width.toNat - 3) := by
      rw [nearestWord]
      omega
    rw [same]
    exact word?_eq (by omega)
  have firstRow : word? (a.top.toNat + 1) = some (a.top.toNat + 1) := word?_eq (by omega)
  have below : minus? s.buffer.row (s.scroll a.height.toNat) = some (s.buffer.row - s.scroll a.height.toNat) :=
    minus?_eq (scroll ▸ Nat.sub_le _ _)
  have short : word? (s.buffer.row - s.scroll a.height.toNat) = some (s.buffer.row - s.scroll a.height.toNat) :=
    word?_eq (by omega)
  have y : word? (a.top.toNat + 1 + (s.buffer.row - s.scroll a.height.toNat)) =
      some (a.top.toNat + 1 + (s.buffer.row - s.scroll a.height.toNat)) := word?_eq (by omega)
  simp only [cursorAt?, scroll?_eq, Option.bind_eq_bind, Option.bind_some, if_pos (And.intro wide high), firstColumn,
    furthest, x, firstRow, below, short, Option.getD_some, y, Option.pure_def]
  rw [show inside = _ from s.cursorIn_eq columns rows, Nat.add_assoc, Nat.add_assoc]

/-- What is to be seen of the cursor at a column and a row of a pane. -/
structure ShowsCursor (s : Session) (p : Pane) (x y : Nat) : Prop where
  column_inside : 0 < x ∧ x + 1 < p.width
  row_inside : 0 < y ∧ y + 1 < p.height
  /-- The row is the one of the cursor's line, -/
  row : s.scroll p.height + y = s.buffer.row + 1
  /-- and it shows that line. -/
  line : p.rows[y]? = some ('│' :: s.buffer.shownLine.pad ' ' p.innerWidth ++ ['│'])
  column : s.buffer.column < p.innerWidth → x = s.buffer.column + 1
  /-- The cell is the one of the character at the cursor, a carriage return before the
  next line excepted, -/
  character : s.buffer.column < p.innerWidth → ∀ c, s.buffer.after.head? = some c →
    (s.buffer.after = ['\r'] → s.buffer.below = []) → p.cell? x y = some c
  /-- or the blank one behind the line. -/
  blank : s.buffer.column < p.innerWidth → s.buffer.after = [] → p.cell? x y = some ' '
  column_last : p.innerWidth ≤ s.buffer.column → x = p.innerWidth

theorem showsCursor (kept : s.buffer.OneLine) (wide : 2 < width) (high : 2 < height) :
    let p := s.inputPane width height
    s.ShowsCursor p (s.cursorIn p).1 (s.cursorIn p).2 := by
  intro p
  have scroll := s.scroll_eq high
  have inner : p.innerWidth = width - 2 := rfl
  have inside : s.buffer.row - s.scroll height + 2 < p.height := by
    change _ < height
    omega
  have shown : p.content[s.buffer.row - s.scroll height]?.getD [] = s.buffer.shownLine := by
    have whole : s.scroll height + (s.buffer.row - s.scroll height) = s.buffer.row := by omega
    rw [← Buffer.getElem?_lines_text kept, show p.content = s.buffer.text.lines.drop (s.scroll height) from rfl,
      List.getElem?_drop, whole]
  have cell (across : s.buffer.column < p.innerWidth) : p.cell? (1 + min s.buffer.column (width - 3))
      (1 + (s.buffer.row - s.scroll height)) = some (s.buffer.shownLine[s.buffer.column]?.getD ' ') := by
    have within : min s.buffer.column (width - 3) = s.buffer.column := by omega
    rw [within, Nat.add_comm 1, Nat.add_comm 1, Pane.cell?_inner across inside, shown]
  have line : p.rows[1 + (s.buffer.row - s.scroll height)]? =
      some ('│' :: s.buffer.shownLine.pad ' ' p.innerWidth ++ ['│']) := by
    rw [Nat.add_comm 1, Pane.rows_inner wide inside, shown]
  rw [show s.cursorIn p = _ from s.cursorIn_eq wide high]
  constructor
  case column_inside =>
    change 0 < 1 + _ ∧ 1 + _ + 1 < width
    omega
  case row_inside =>
    change 0 < 1 + _ ∧ 1 + _ + 1 < height
    omega
  case row =>
    change s.scroll height + (1 + _) = _
    omega
  case line => exact line
  case column =>
    intro across
    dsimp only
    omega
  case character =>
    intro across c next read
    rw [cell across, Buffer.getElem?_shownLine next read, Option.getD_some]
  case blank =>
    intro across ended
    rw [cell across, Buffer.getElem?_shownLine_end ended, Option.getD_none]
  case column_last =>
    intro beyond
    dsimp only
    omega

/-- The left of a screen is its text pane. -/
theorem screen_cell (across : x < inputWidth width) (down : y < height - 1) :
    (s.screen width height).rows[y]?.bind (·[x]?) = (s.inputPane (inputWidth width) (height - 1)).cell? x y := by
  have row (p : Pane) (same : p.height = height - 1) : p.rows[y]? = some (p.row y) := by
    rw [Pane.rows, List.getElem?_map, List.getElem?_range (same ▸ down), Option.map_some]
  have left := row (s.inputPane (inputWidth width) (height - 1)) rfl
  have right := row (s.diagramPane (width - inputWidth width) (height - 1)) rfl
  have both : y < ((s.inputPane (inputWidth width) (height - 1)).rows.zipWith (· ++ ·)
      (s.diagramPane (width - inputWidth width) (height - 1)).rows).length := by
    simp only [List.length_zipWith, Pane.rows, List.length_map, List.length_range]
    exact Nat.lt_min.mpr ⟨down, down⟩
  rw [Pane.cell?, left, Option.bind_some, screen]
  dsimp only
  rw [List.getElem?_append_left both, List.getElem?_zipWith, left, right, Option.bind_some,
    List.getElem?_append_left (by rwa [Pane.length_row])]

/-- A screen shows its cursor where it puts it. -/
theorem screen_showsCursor (kept : s.buffer.OneLine) (wide : 2 < inputWidth width) (high : 3 < height) :
    let p := s.inputPane (inputWidth width) (height - 1)
    let shown := s.screen width height
    s.ShowsCursor p shown.cursorX shown.cursorY ∧
      shown.rows[shown.cursorY]?.bind (·[shown.cursorX]?) = p.cell? shown.cursorX shown.cursorY := by
  intro p shown
  have shows : s.ShowsCursor p shown.cursorX shown.cursorY := showsCursor kept wide (Nat.lt_sub_of_add_lt high)
  have across : shown.cursorX + 1 < inputWidth width := shows.column_inside.2
  have down : shown.cursorY + 1 < height - 1 := shows.row_inside.2
  exact ⟨shows, screen_cell (Nat.lt_of_succ_lt across) (Nat.lt_of_succ_lt down)⟩

end Session

theorem Buffer.oneLine_typed (seed : Option Text) {keys : List Key} (others : .char '\n' ∉ keys) :
    (((seed.map ofText).getD {}).type keys).OneLine := by
  refine oneLine_type ?_ others
  cases seed with
  | none => exact List.forall_mem_singleton.mpr List.not_mem_nil
  | some t => exact oneLine_ofText t

open Session in
/-- Whatever was opened and whatever has been typed, short of a newline typed as a
character, the cursor is put inside the text pane, on the row with the cursor's line.
Nothing overflows on the way there. It stands on the cell of the character at the
cursor while the column is one of those inside, and else in the last of them. The text
is scrolled only when the cursor's row does not fit. -/
theorem cursor_follows_text (seed : Option Text) (keys : List Key) (others : .char '\n' ∉ keys) (preview : Preview)
    (quit : Bool) (a : Area) (screenWidth screenHeight : UInt16) (lies : a.LiesOn screenWidth screenHeight)
    (wide : 2 < a.width) (high : 2 < a.height) :
    let b := ((seed.map Buffer.ofText).getD {}).type keys
    let s : Session := { buffer := b, preview, quit }
    let p := s.inputPane a.width.toNat a.height.toNat
    s.scroll p.height ≤ 65535 → s.paneIn? a = some p ∧
      (∃ x y, s.cursorAt? a = some (some (a.left.toNat + x, a.top.toNat + y)) ∧ s.cursorIn p = (x, y) ∧
        s.ShowsCursor p x y) ∧
      (b.line = b.shownLine ∨ b.line = b.shownLine ++ ['\r'] ∧ b.below ≠ []) ∧
      (s.scroll p.height = 0 ↔ b.row < p.height - 2) := by
  intro b s p near
  have kept : b.OneLine := Buffer.oneLine_typed seed others
  have columns : 2 < a.width.toNat := UInt16.lt_iff_toNat_lt.mp wide
  have rows : 2 < a.height.toNat := UInt16.lt_iff_toNat_lt.mp high
  have scroll : s.scroll p.height = b.row - (p.height - 3) := s.scroll_eq rows
  have room : 2 < p.height := rows
  refine ⟨paneIn?_eq (Nat.lt_succ_of_le near), ⟨_, _, cursorAt?_eq lies wide high, rfl, ?_⟩, b.line_eq_shownLine, ?_⟩
  · exact showsCursor kept columns rows
  · omega

/-- On the third line of a text in a pane with two rows and two columns inside, which
stands to the right of the third column and below the first row. -/
theorem cursor_follows_text_scrolled :
    let s : Session := {
      buffer := Buffer.type {} [.char 'a', .enter, .char 'b', .enter, .char 'c', .char 'd', .left]
      preview := .ofScreen 80 24 }
    let a : Area := { left := 3, top := 1, width := 4, height := 4 }
    s.cursorAt? a = some (some (5, 3)) ∧ (s.inputPane 4 4).cell? 2 2 = some 'd' ∧ s.scroll 4 ≠ 0 := by
  intro s a
  obtain ⟨_, ⟨x, y, placed, inside, shows⟩, _, unscrolled⟩ := cursor_follows_text none
    [.char 'a', .enter, .char 'b', .enter, .char 'c', .char 'd', .left] (by decide) (.ofScreen 80 24) false a 80 24
    ⟨by decide, by decide⟩ (by decide) (by decide) (by decide)
  have there : s.cursorIn (s.inputPane 4 4) = (2, 2) := by decide
  obtain ⟨rfl, rfl⟩ := Prod.mk.inj (there.symm.trans inside)
  have character := shows.character (by decide) 'd' (by decide) (by decide)
  exact ⟨placed, character, fun none_out => absurd (unscrolled.mp none_out) (by decide)⟩

end SequenceDiagram
