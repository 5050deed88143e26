import SequenceDiagram.Picture.Scene
import SequenceDiagram.Proofs.Canvas.Strokes
import SequenceDiagram.Statement.Basic

/-! The header of an actor, taken by itself: a closed frame with the name in it, and
the lifeline below. The frame has room for the name, so neither covers the other,
and the lifeline meets the frame from below only. That makes a tee of one cell of the
bottom edge and of no other. -/
namespace SequenceDiagram

variable {page : Page} {a : Actor} {side : Side} {ch : Char} {bottom width x y : Nat}

namespace Page

/-- The lowest row of the headers. -/
def lastRow (page : Page) : Nat := page.gutter + page.lineHeight - 1

/-- The row of the names. -/
def nameRow (page : Page) : Nat := page.gutter + page.lineHeight / 2

end Page

/-- A header with room for the name inside its frame, and for the lifeline between
its corners. -/
structure Actor.Framed (page : Page) (a : Actor) : Prop where
  width : a.slot.width = a.name.length + 2 * page.gutter
  top : a.slot.top = page.gutter
  height : a.slot.height = page.lineHeight
  named : 1 ≤ a.name.length
  plain : ∀ ch ∈ a.name, Arms.ofChar? ch = none
  gutter : 1 ≤ page.gutter
  lines : 3 ≤ page.lineHeight

namespace Actor

/-- The sides on which the frame and the lifeline of an actor leave a cell. -/
def HeaderRuns (page : Page) (a : Actor) (x y : Nat) (side : Side) : Prop :=
  Shape.FrameRuns a.slot.left page.gutter (a.slot.right - 1) page.lastRow x y side ∨
    x = a.mid ∧ page.lastRow ≤ y ∧ (side = .up ∨ side = .down)

/-- The character of the name at a position of the header. -/
def letter? (page : Page) (a : Actor) (x y : Nat) : Option Char :=
  if y = page.nameRow ∧ a.slot.left + page.gutter ≤ x then a.name[x - (a.slot.left + page.gutter)]? else none

theorem mem_name_of_letter (a : Actor) (letter : a.letter? page x y = some ch) : ch ∈ a.name := by
  rw [letter?] at letter
  split at letter
  · exact List.mem_of_getElem? letter
  · cases letter

namespace Framed

variable (framed : a.Framed page)
include framed

theorem mid_between : a.slot.left < a.mid ∧ a.mid + 1 < a.slot.right := by
  obtain ⟨width, _, _, named, gutter, _⟩ := framed
  rw [mid, Slot.mid_eq, Slot.right]
  omega

theorem nameRow_between : page.gutter < page.nameRow ∧ page.nameRow < page.lastRow := by
  have lines := framed.lines
  rw [Page.nameRow, Page.lastRow]
  omega

theorem ofActor_eq (low : page.lastRow ≤ bottom) : Shape.ofActor bottom a =
    [.frame a.slot.left page.gutter (a.slot.right - 1) page.lastRow,
      .text (a.slot.left + page.gutter) page.nameRow a.name, .down a.mid page.lastRow bottom] := by
  obtain ⟨width, top, height, named, _, gutter, lines⟩ := framed
  have right : a.slot.left + max a.slot.width 1 - 1 = a.slot.right - 1 := by
    rw [Slot.right]
    omega
  have lastRow : a.slot.top + max a.slot.height 1 - 1 = page.lastRow := by
    rw [Page.lastRow]
    omega
  have inset : (a.slot.width - a.name.length) / 2 = page.gutter := by omega
  rw [Shape.ofActor, right, lastRow, inset, Nat.max_eq_left low, top, height, Page.nameRow]

/-- An actor draws in the columns of its header, from the top of the header down. -/
theorem within_of_charsAt (low : page.lastRow ≤ bottom)
    (written : ch ∈ (Shape.ofActor bottom a).flatMap (·.charsAt width x y)) :
    a.slot.left ≤ x ∧ x < a.slot.right ∧ page.gutter ≤ y := by
  obtain ⟨left, right⟩ := framed.mid_between
  obtain ⟨under, above⟩ := framed.nameRow_between
  simp only [framed.ofActor_eq low, List.flatMap_cons, List.flatMap_nil, List.mem_append, List.not_mem_nil, or_false] at written
  rcases written with frame | name | line
  · rw [Shape.mem_charsAt_frame (by omega) (by omega), Shape.mem_edge_iff (by omega) (by omega)] at frame
    omega
  · obtain ⟨⟨_, offset⟩, numbered, same⟩ := List.mem_map.mp (Spot.mem_charsAt.mp name)
    obtain ⟨inside, _⟩ := List.getElem?_eq_some_iff.mp (List.mem_zipIdx_iff_getElem?.mp numbered)
    rw [List.length_take] at inside
    rw [Spot.mk.injEq] at same
    have wide := framed.width
    have gutter := framed.gutter
    rw [Slot.right]
    dsimp only at inside same
    omega
  · rw [Shape.mem_charsAt_down low] at line
    omega

/-- Where the name has a character there are no lines. -/
theorem not_runs_of_letter (letter : a.letter? page x y = some ch) : ¬ a.HeaderRuns page x y side := by
  rw [letter?] at letter
  split at letter
  · rename_i here
    obtain ⟨inside, _⟩ := List.getElem?_eq_some_iff.mp letter
    obtain ⟨left, right⟩ := framed.mid_between
    obtain ⟨under, above⟩ := framed.nameRow_between
    have wide := framed.width
    have gutter := framed.gutter
    rw [HeaderRuns, Slot.right]
    rw [Slot.right] at right
    cases side <;> simp only [Shape.FrameRuns] <;> omega
  · cases letter

/-- An actor draws a line wherever its frame or its lifeline is. -/
theorem runs_iff_drawn (width : Nat) (low : page.lastRow ≤ bottom) (high : y ≤ bottom) : a.HeaderRuns page x y side ↔
    ∃ ch ∈ (Shape.frame a.slot.left page.gutter (a.slot.right - 1) page.lastRow).charsAt width x y ++
      (Shape.down a.mid page.lastRow bottom).charsAt width x y, Runs side ch := by
  obtain ⟨left, right⟩ := framed.mid_between
  obtain ⟨under, above⟩ := framed.nameRow_between
  simp only [List.mem_append, or_and_right, exists_or]
  rw [Shape.frame_runs (by omega) (by omega), Shape.down_runs low, HeaderRuns]
  simp only [high, true_and]

/-- What an actor draws on a blank cell: a character of its name or a blank, and the
arms of its frame and its lifeline. -/
theorem writeAll_ofActor (low : page.lastRow ≤ bottom) (inside : x < width) (high : y ≤ bottom) : ∃ arms,
    ({ char := ' ' } : Cell).writeAll ((Shape.ofActor bottom a).flatMap (·.charsAt width x y)) =
        { char := (a.letter? page x y).getD ' ', arms } ∧
      ∀ side, arms.has side = true ↔ a.HeaderRuns page x y side := by
  have strokes : ∀ ch ∈ (Shape.frame a.slot.left page.gutter (a.slot.right - 1) page.lastRow).charsAt width x y ++
      (Shape.down a.mid page.lastRow bottom).charsAt width x y, (Arms.ofChar? ch).isSome = true :=
    List.forall_mem_append.mpr ⟨fun _ => Shape.stroke_of_frame, fun _ => Shape.stroke_of_down⟩
  rw [framed.ofActor_eq low, List.flatMap_cons, List.flatMap_cons, List.flatMap_singleton, Shape.charsAt_text_eq inside]
  simp only [framed.runs_iff_drawn width low high]
  refine Cell.writeAll_letter_or_strokes strokes fun ch letter => ⟨framed.plain ch (a.mem_name_of_letter letter), ?_⟩
  refine List.eq_nil_iff_forall_not_mem.mpr fun stroke member => ?_
  obtain ⟨side, run⟩ := exists_runs (strokes stroke member)
  exact framed.not_runs_of_letter letter ((framed.runs_iff_drawn width low high).mpr ⟨stroke, member, run⟩)

end Framed

end Actor

/-! ### What a header shows -/

/-- What a header shows in a column and a line of its own: a closed frame with a tee
where the lifeline leaves it, and in the middle line the name. -/
def Actor.headerChar (page : Page) (a : Actor) (column line : Nat) : Char :=
  if line = 0 then
    if column = 0 then '┌' else if column + 1 = a.slot.width then '┐' else '─'
  else if line + 1 = page.lineHeight then
    if column = 0 then '└' else if column + 1 = a.slot.width then '┘'
    else if a.slot.left + column = a.mid then '┬' else '─'
  else if column = 0 ∨ column + 1 = a.slot.width then '│'
  else if line = page.lineHeight / 2 ∧ page.gutter ≤ column then a.name[column - page.gutter]?.getD ' '
  else ' '

example : (List.range 4).map (fun line => (List.range 5).map fun column =>
    Actor.headerChar { gutter := 1, lineHeight := 4 } { name := "Bob".toList, slot := { left := 5, width := 5 } } column line) =
    ["┌───┐".toList, "│   │".toList, "│Bob│".toList, "└─┬─┘".toList] := by decide

/-- The sides on which the lines of a header go on in the next cell. -/
def Actor.HeaderMeets (page : Page) (a : Actor) (column line : Nat) : Side → Prop
  | .left => (line = 0 ∨ line + 1 = page.lineHeight) ∧ 0 < column
  | .right => (line = 0 ∨ line + 1 = page.lineHeight) ∧ column + 1 < a.slot.width
  | .up => (column = 0 ∨ column + 1 = a.slot.width) ∧ 0 < line
  | .down => (column = 0 ∨ column + 1 = a.slot.width) ∧ line + 1 < page.lineHeight ∨
      a.slot.left + column = a.mid ∧ line + 1 = page.lineHeight

namespace Actor

variable {column line : Nat} (wide : column < a.slot.width) (high : line < page.lineHeight)
include wide high

/-- On the edge of a header there is the stroke of the sides on which its lines go on. -/
theorem Framed.stroke_of_edge (framed : a.Framed page)
    (edge : line = 0 ∨ line + 1 = page.lineHeight ∨ column = 0 ∨ column + 1 = a.slot.width) :
    ∃ arms : Arms, arms ≠ .none ∧ (∀ side, arms.has side = true ↔ a.HeaderMeets page column line side) ∧
      a.headerChar page column line = arms.glyph := by
  obtain ⟨after, before⟩ := framed.mid_between
  have lines := framed.lines
  rw [Slot.right] at before
  rw [headerChar]
  -- the top edge from left to right, then the bottom edge with its tee, then the two sides
  split
  · split
    · refine ⟨⟨false, true, false, true⟩, by decide, fun side => ?_, rfl⟩
      cases side <;> simp only [Arms.has, HeaderMeets, Bool.false_eq_true, false_iff, true_iff] <;> omega
    split
    · refine ⟨⟨true, false, false, true⟩, by decide, fun side => ?_, rfl⟩
      cases side <;> simp only [Arms.has, HeaderMeets, Bool.false_eq_true, false_iff, true_iff] <;> omega
    · refine ⟨⟨true, true, false, false⟩, by decide, fun side => ?_, rfl⟩
      cases side <;> simp only [Arms.has, HeaderMeets, Bool.false_eq_true, false_iff, true_iff] <;> omega
  split
  · split
    · refine ⟨⟨false, true, true, false⟩, by decide, fun side => ?_, rfl⟩
      cases side <;> simp only [Arms.has, HeaderMeets, Bool.false_eq_true, false_iff, true_iff] <;> omega
    split
    · refine ⟨⟨true, false, true, false⟩, by decide, fun side => ?_, rfl⟩
      cases side <;> simp only [Arms.has, HeaderMeets, Bool.false_eq_true, false_iff, true_iff] <;> omega
    split
    · refine ⟨⟨true, true, false, true⟩, by decide, fun side => ?_, rfl⟩
      cases side <;> simp only [Arms.has, HeaderMeets, Bool.false_eq_true, false_iff, true_iff] <;> omega
    · refine ⟨⟨true, true, false, false⟩, by decide, fun side => ?_, rfl⟩
      cases side <;> simp only [Arms.has, HeaderMeets, Bool.false_eq_true, false_iff, true_iff] <;> omega
  split
  · refine ⟨⟨false, false, true, true⟩, by decide, fun side => ?_, rfl⟩
    cases side <;> simp only [Arms.has, HeaderMeets, Bool.false_eq_true, false_iff, true_iff] <;> omega
  · omega

/-- Inside of its edge a header has no lines, and the name where that has a character. -/
theorem letter_of_inner
    (inner : ¬(line = 0 ∨ line + 1 = page.lineHeight ∨ column = 0 ∨ column + 1 = a.slot.width)) :
    (∀ side, ¬ a.HeaderRuns page (a.slot.left + column) (page.gutter + line) side) ∧
      a.headerChar page column line = (a.letter? page (a.slot.left + column) (page.gutter + line)).getD ' ' := by
  constructor
  · intro side
    cases side <;> simp only [HeaderRuns, Shape.FrameRuns, Page.lastRow, Slot.right] <;> omega
  · rw [headerChar, if_neg (by omega), if_neg (by omega), if_neg (by omega), letter?, Page.nameRow]
    by_cases named : line = page.lineHeight / 2 ∧ page.gutter ≤ column
    · have column_eq : a.slot.left + column - (a.slot.left + page.gutter) = column - page.gutter := by omega
      rw [if_pos named, if_pos (by omega), column_eq]
    · rw [if_neg named, if_neg (by omega)]
      rfl

end Actor

/-- No stroke stands in a name. -/
theorem plain_of_isNameChar (named : isNameChar ch = true) : Arms.ofChar? ch = none := by
  unfold Arms.ofChar?
  split <;> first | rfl | exact absurd named (by decide)

end SequenceDiagram
