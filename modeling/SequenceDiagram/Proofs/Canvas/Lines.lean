import Mathlib.Data.List.DropRight
import SequenceDiagram.Canvas.Basic
import SequenceDiagram.Proofs.Canvas.Cells

/-! The picture of a canvas, line by line. The lines are the rows of the canvas as
long as no row shows a newline. What trimming takes away is blank, so with blanks
thought at the end of each line, and blank lines at the end of the picture, every
position of the picture shows what the canvas shows there. -/
namespace SequenceDiagram

variable {c : Canvas} {ls : List Text} {x y : Nat} {ch : Char}

/-- The character at a column of a line. Past the end of a line, and below the
last line, a text is blank. -/
def Text.charAt (t : Text) (x y : Nat) : Char := (t.split[y]?.getD [])[x]?.getD ' '

/-- Taking blanks from the end of a list changes nothing for who reads blanks
there anyway. -/
theorem getElem?_rdropWhile_getD {α : Type} {p : α → Bool} {blank : α} (only : ∀ a, p a = true → a = blank)
    (as : List α) (i : Nat) : (as.rdropWhile p)[i]?.getD blank = as[i]?.getD blank := by
  have whole : as.rdropWhile p ++ as.rtakeWhile p = as := List.rdropWhile_append_rtakeWhile
  conv_rhs => rw [← whole]
  rcases Nat.lt_or_ge i (as.rdropWhile p).length with inside | past
  · rw [List.getElem?_append_left inside]
  · rw [List.getElem?_append_right past, List.getElem?_eq_none past, Option.getD_none]
    cases cut : (as.rtakeWhile p)[i - (as.rdropWhile p).length]? with
    | none => rfl
    | some a => exact (only a (List.mem_rtakeWhile_imp (List.mem_of_getElem? cut))).symm

namespace Text

theorem split_join (free : ∀ l ∈ ls, '\n' ∉ l) (full : ls ≠ []) : (join ls).split = ls :=
  List.splitOn_intercalate '\n' free full

theorem charAt_join (free : ∀ l ∈ ls, '\n' ∉ l) : (join ls).charAt x y = (ls[y]?.getD [])[x]?.getD ' ' := by
  rw [charAt]
  cases ls with
  | nil => cases y <;> rfl
  | cons l rest => rw [split_join free (List.cons_ne_nil l rest)]

/-- The lines without the blanks at their ends, and without those at the end that
are empty then. -/
def trimmed (ls : List Text) : List Text := (ls.map (List.rdropWhile (· == ' '))).rdropWhile List.isEmpty

theorem trimLines_join (free : ∀ l ∈ ls, '\n' ∉ l) (full : ls ≠ []) : (join ls).trimLines = join (trimmed ls) := by
  rw [trimLines, split_join free full]
  rfl

theorem newline_free_trimmed (free : ∀ l ∈ ls, '\n' ∉ l) : ∀ l ∈ trimmed ls, '\n' ∉ l := by
  intro l member newline
  obtain ⟨line, held, rfl⟩ := List.mem_map.mp ((List.rdropWhile_prefix _ _).subset member)
  exact free line held ((List.rdropWhile_prefix _ _).subset newline)

/-- Trimming the lines of a text takes nothing from it but blanks. -/
theorem charAt_trimLines (free : ∀ l ∈ ls, '\n' ∉ l) (full : ls ≠ []) :
    (join ls).trimLines.charAt x y = (ls[y]?.getD [])[x]?.getD ' ' := by
  rw [trimLines_join free full, charAt_join (newline_free_trimmed free), trimmed,
    getElem?_rdropWhile_getD fun l => List.isEmpty_iff.mp, List.getElem?_map]
  cases ls[y]? with
  | none => rfl
  | some line => exact getElem?_rdropWhile_getD (fun a => beq_iff_eq.mp) line x

/-- Where something is seen in the last line, trimming keeps all lines. -/
theorem length_split_trimLines {l : Text} (free : ∀ line ∈ ls ++ [l], '\n' ∉ line) (seen : ch ∈ l) (visible : ch ≠ ' ') :
    (join (ls ++ [l])).trimLines.split.length = ls.length + 1 := by
  have last : (l.rdropWhile (· == ' ')).isEmpty = false := by
    rw [List.isEmpty_eq_false_iff]
    intro blank
    exact visible (beq_iff_eq.mp (List.rdropWhile_eq_nil_iff.mp blank ch seen))
  have all : trimmed (ls ++ [l]) = (ls ++ [l]).map (List.rdropWhile (· == ' ')) := by
    rw [trimmed, List.map_append, List.map_singleton, List.rdropWhile_concat_neg _ _ _ (by rw [last]; exact Bool.false_ne_true)]
  have kept := newline_free_trimmed free
  rw [trimLines_join free (List.concat_ne_nil _ _), all, split_join (all ▸ kept) (by simp), List.length_map,
    List.length_append, List.length_singleton]

end Text

namespace Canvas

theorem getElem?_row (high : y < c.height) : (c.row y)[x]? = (c.cell? x y).map (c.shownBy x y) := by
  have cells : c.row y = (List.range c.width).map fun x => c.shownBy x y ((c.cell? x y).getD { char := ' ' }) := by
    rw [row, ← List.filterMap_eq_map]
    refine List.filterMap_congr fun x member => ?_
    obtain ⟨cell, held⟩ := cell?_of_lt (List.mem_range.mp member) high
    simp only [held, Option.map_some, Function.comp_apply, Option.getD_some]
  rw [cells, List.getElem?_map]
  by_cases wide : x < c.width
  · obtain ⟨cell, held⟩ := cell?_of_lt wide high
    simp only [List.getElem?_range wide, held, Option.map_some, Option.getD_some]
  · have off : c.cell? x y = none := cell?_of_not_inBounds fun on => wide (inBounds_iff.mp on).1
    rw [List.getElem?_eq_none (by simpa using wide), off]
    rfl

theorem length_rows (c : Canvas) : c.rows.length = c.height := by
  rw [rows, List.length_map, List.length_range]

theorem getElem?_rows (high : y < c.height) : c.rows[y]? = some (c.row y) := by
  rw [rows, List.getElem?_map, List.getElem?_range high, Option.map_some]

theorem newline_free_rows (free : ∀ x y, c.get x y ≠ .ok '\n') : ∀ l ∈ c.rows, '\n' ∉ l := by
  intro l member newline
  obtain ⟨y, inside, rfl⟩ := List.mem_map.mp member
  obtain ⟨x, here⟩ := List.mem_iff_getElem?.mp newline
  rw [getElem?_row (List.mem_range.mp inside)] at here
  obtain ⟨cell, held, shown⟩ := Option.map_eq_some_iff.mp here
  exact free x y (shown ▸ get_of_cell held)

/-- The picture shows at each position what the canvas shows there, and blanks right
of the canvas. -/
theorem charAt_picture_eq (free : ∀ x y, c.get x y ≠ .ok '\n') (high : y < c.height) :
    c.picture.charAt x y = ((c.cell? x y).map (c.shownBy x y)).getD ' ' := by
  have full : c.rows ≠ [] := List.ne_nil_of_length_pos (by rw [length_rows]; omega)
  rw [picture, display, Text.charAt_trimLines (newline_free_rows free) full, getElem?_rows high, Option.getD_some,
    getElem?_row high]

theorem charAt_picture (free : ∀ x y, c.get x y ≠ .ok '\n') (shown : c.get x y = .ok ch) :
    c.picture.charAt x y = ch := by
  obtain ⟨cell, held, shown⟩ := cell_of_get shown
  rw [charAt_picture_eq free (lt_of_cell? held).2, held, Option.map_some, Option.getD_some, shown]

/-- Where something is seen in the lowest row, the picture has all rows of the
canvas. -/
theorem length_split_picture (free : ∀ x y, c.get x y ≠ .ok '\n') (lowest : c.height = y + 1)
    (shown : c.get x y = .ok ch) (visible : ch ≠ ' ') : c.picture.split.length = c.height := by
  obtain ⟨cell, held, shown⟩ := cell_of_get shown
  have seen : ch ∈ c.row y := by
    apply List.mem_of_getElem? (i := x)
    rw [getElem?_row (lt_of_cell? held).2, held, Option.map_some, shown]
  have lines := newline_free_rows free
  have parts : c.rows = (List.range y).map c.row ++ [c.row y] := by
    rw [rows, lowest, List.range_succ, List.map_append, List.map_singleton]
  rw [parts] at lines
  rw [picture, display, parts, Text.length_split_trimLines lines seen visible, List.length_map, List.length_range, lowest]

end Canvas

end SequenceDiagram
