import SequenceDiagram.Proofs.Canvas.Cells

/-! Strokes on their cells. A stroke runs to some sides of its cell, and a cell that
only strokes are written to runs to all of them. So which sides the lines of a
frame leave a cell on can be told from the cell's place on the frame. -/
namespace SequenceDiagram

variable {s : Shape} {spot : Spot} {side : Side} {ch char : Char} {t : Text}
  {left top right bottom width row column first last x y : Nat}

/-- The character is a stroke with an arm on the side. -/
def Runs (side : Side) (ch : Char) : Prop := ((Arms.ofChar? ch).getD .none).has side = true

instance (side : Side) (ch : Char) : Decidable (Runs side ch) := inferInstanceAs (Decidable (_ = _))

/-- Every stroke runs somewhere. -/
theorem exists_runs (stroke : (Arms.ofChar? ch).isSome = true) : ∃ side, Runs side ch := by
  obtain ⟨⟨left, right, up, down⟩, here⟩ := Option.isSome_iff_exists.mp stroke
  have held := Arms.ne_none_of_ofChar? here
  by_contra nowhere
  simp only [not_exists, Runs, here, Option.getD_some, Bool.not_eq_true] at nowhere
  apply held
  rw [Arms.none, Arms.mk.injEq]
  exact ⟨nowhere .left, nowhere .right, nowhere .up, nowhere .down⟩

theorem Arms.ext_has {first second : Arms} (same : ∀ side, first.has side = second.has side) : first = second := by
  obtain ⟨_, _, _, _⟩ := first
  obtain ⟨_, _, _, _⟩ := second
  rw [Arms.mk.injEq]
  exact ⟨same .left, same .right, same .up, same .down⟩

/-- Strokes leave a cell its character, and it runs to every side that one of them
runs to. -/
theorem Cell.writeAll_of_strokes (strokes : ∀ ch ∈ t, (Arms.ofChar? ch).isSome = true) (char : Char) (arms : Arms) :
    ∃ after, ({ char, arms } : Cell).writeAll t = { char, arms := after } ∧
      ∀ side, after.has side = true ↔ arms.has side = true ∨ ∃ stroke ∈ t, Runs side stroke := by
  induction t generalizing arms with
  | nil => exact ⟨arms, rfl, fun side => by simp⟩
  | cons stroke rest ih =>
    obtain ⟨more, here⟩ := Option.isSome_iff_exists.mp (strokes stroke List.mem_cons_self)
    obtain ⟨after, written, runs⟩ := ih (fun ch member => strokes ch (List.mem_cons_of_mem _ member)) (arms.union more)
    refine ⟨after, ?_, fun side => ?_⟩
    · rw [writeAll, List.foldl_cons, write_stroke here]
      exact written
    · have own : Runs side stroke ↔ more.has side = true := by rw [Runs, here, Option.getD_some]
      rw [runs, Arms.has_union, Bool.or_eq_true, List.exists_mem_cons_iff, own, or_assoc]

/-- On a blank cell, a letter that no stroke goes with is left, or the strokes are. -/
theorem Cell.writeAll_letter_or_strokes {before after : Text} {letter : Option Char}
    (strokes : ∀ ch ∈ before ++ after, (Arms.ofChar? ch).isSome = true)
    (plain : ∀ ch, letter = some ch → Arms.ofChar? ch = none ∧ before ++ after = []) : ∃ arms,
      ({ char := ' ' } : Cell).writeAll (before ++ (letter.toList ++ after)) = { char := letter.getD ' ', arms } ∧
      ∀ side, arms.has side = true ↔ ∃ stroke ∈ before ++ after, Runs side stroke := by
  have empty (side : Side) : Arms.none.has side = false := by cases side <;> rfl
  cases letter with
  | none =>
    obtain ⟨arms, written, each⟩ := writeAll_of_strokes strokes ' ' .none
    refine ⟨arms, written, fun side => ?_⟩
    rw [each, empty]
    simp only [Bool.false_eq_true, false_or]
  | some ch =>
    obtain ⟨own, clear⟩ := plain ch rfl
    obtain ⟨rfl, rfl⟩ := List.append_eq_nil_iff.mp clear
    refine ⟨.none, write_plain own, fun side => ?_⟩
    rw [empty]
    refine iff_of_false Bool.false_ne_true ?_
    rintro ⟨_, member, _⟩
    cases member

/-- A cell whose arms are met on some sides shows the stroke with these arms. -/
theorem Canvas.get_of_joins {c : Canvas} {cell : Cell} {arms : Arms} (held : c.cell? x y = some cell)
    (met : ∀ side, c.joins x y side = arms.has side) (some_side : arms ≠ .none) : c.get x y = .ok arms.glyph := by
  have joined : c.joined x y = arms := Arms.ext_has fun side => by
    rw [← met]
    cases side <;> rfl
  have drawn : cell.arms.isEmpty = false := by
    rw [Arms.isEmpty, beq_eq_false_iff_ne]
    rintro empty
    apply some_side
    refine Arms.ext_has fun side => ?_
    rw [← met, joins, armsAt, held, Option.map_some, Option.getD_some, empty]
    cases side <;> rfl
  have visible : arms.isEmpty = false := by rwa [Arms.isEmpty, beq_eq_false_iff_ne]
  rw [get_of_cell held, shownBy, drawn, joined, visible]
  rfl

namespace Shape

/-- The highest row that a shape writes to. -/
def highest : Shape → Nat
  | dot _ y _ | text _ y _ | across _ _ y | heavy _ _ y => y
  | erase _ y0 _ y1 | down _ y0 y1 | frame _ y0 _ y1 => min y0 y1

theorem mem_row_iff {xs : List Nat} : ⟨x, y, ch⟩ ∈ Shape.row char row xs ↔ ch = char ∧ y = row ∧ x ∈ xs := by
  simp only [Shape.row, List.mem_map, Spot.mk.injEq]
  constructor
  · rintro ⟨_, member, rfl, rfl, rfl⟩
    exact ⟨rfl, rfl, member⟩
  · rintro ⟨rfl, rfl, member⟩
    exact ⟨x, member, rfl, rfl, rfl⟩

theorem mem_column_iff {ys : List Nat} :
    ⟨x, y, ch⟩ ∈ Shape.column char column ys ↔ ch = char ∧ x = column ∧ y ∈ ys := by
  simp only [Shape.column, List.mem_map, Spot.mk.injEq]
  constructor
  · rintro ⟨_, member, rfl, rfl, rfl⟩
    exact ⟨rfl, rfl, member⟩
  · rintro ⟨rfl, rfl, member⟩
    exact ⟨y, member, rfl, rfl, rfl⟩

/-- The strokes of a frame: two rows, two columns and four corners. -/
theorem mem_edge_iff (wide : left ≤ right) (high : top ≤ bottom) : ⟨x, y, ch⟩ ∈ edge left top right bottom ↔
    ch = '─' ∧ y = top ∧ left < x ∧ x < right ∨ ch = '─' ∧ y = bottom ∧ left < x ∧ x < right ∨
      ch = '│' ∧ x = left ∧ top < y ∧ y < bottom ∨ ch = '│' ∧ x = right ∧ top < y ∧ y < bottom ∨
      x = left ∧ y = top ∧ ch = '┌' ∨ x = right ∧ y = top ∧ ch = '┐' ∨
      x = left ∧ y = bottom ∧ ch = '└' ∨ x = right ∧ y = bottom ∧ ch = '┘' := by
  simp only [edge, List.mem_append, List.mem_cons, List.not_mem_nil, or_false, mem_row_iff, mem_column_iff, mem_inside,
    Spot.mk.injEq, Nat.min_eq_left wide, Nat.max_eq_right wide, Nat.min_eq_left high, Nat.max_eq_right high, or_assoc]

/-- The sides on which the edge of a rectangle leaves a cell. -/
def FrameRuns (left top right bottom x y : Nat) : Side → Prop
  | .left => (y = top ∨ y = bottom) ∧ left < x ∧ x ≤ right
  | .right => (y = top ∨ y = bottom) ∧ left ≤ x ∧ x < right
  | .up => (x = left ∨ x = right) ∧ top < y ∧ y ≤ bottom
  | .down => (x = left ∨ x = right) ∧ top ≤ y ∧ y < bottom

theorem mem_charsAt_frame (wide : left < right) (high : top < bottom) :
    ch ∈ (frame left top right bottom).charsAt width x y ↔ ⟨x, y, ch⟩ ∈ edge left top right bottom := by
  rw [charsAt, Spot.mem_charsAt, footprint, if_neg (Nat.ne_of_lt high), if_neg (Nat.ne_of_lt wide),
    Nat.min_eq_left (Nat.le_of_lt wide), Nat.max_eq_right (Nat.le_of_lt wide), Nat.min_eq_left (Nat.le_of_lt high),
    Nat.max_eq_right (Nat.le_of_lt high)]

theorem frame_runs (wide : left < right) (high : top < bottom) :
    (∃ ch ∈ (frame left top right bottom).charsAt width x y, Runs side ch) ↔
      FrameRuns left top right bottom x y side := by
  simp only [mem_charsAt_frame wide high, mem_edge_iff (Nat.le_of_lt wide) (Nat.le_of_lt high), or_and_right, and_assoc,
    exists_or, exists_and_left, exists_eq_left]
  cases side <;> simp [FrameRuns, Runs, Arms.ofChar?, Arms.has] <;> omega

theorem stroke_of_frame {x0 y0 x1 y1 : Nat} (written : ch ∈ (frame x0 y0 x1 y1).charsAt width x y) :
    (Arms.ofChar? ch).isSome = true := by
  have drawn := mem_palette_of_mem_charsAt written
  simp only [palette, List.mem_cons, List.not_mem_nil, or_false] at drawn
  rcases drawn with rfl | rfl | rfl | rfl | rfl | rfl <;> rfl

theorem stroke_of_down (written : ch ∈ (down column first last).charsAt width x y) :
    (Arms.ofChar? ch).isSome = true := by
  rw [List.mem_singleton.mp (mem_palette_of_mem_charsAt written)]
  rfl

theorem mem_charsAt_down (order : first ≤ last) :
    ch ∈ (down column first last).charsAt width x y ↔ ch = '│' ∧ x = column ∧ first ≤ y ∧ y ≤ last := by
  rw [charsAt, Spot.mem_charsAt, footprint, mem_column_iff, mem_between, Nat.min_eq_left order, Nat.max_eq_right order]

/-- A vertical line runs up and down. -/
theorem down_runs (order : first ≤ last) : (∃ ch ∈ (down column first last).charsAt width x y, Runs side ch) ↔
    x = column ∧ first ≤ y ∧ y ≤ last ∧ (side = .up ∨ side = .down) := by
  simp only [mem_charsAt_down order, and_assoc, exists_eq_left]
  cases side <;> simp [Runs, Arms.ofChar?, Arms.has]

/-- A text writes to each column the character that it has there. -/
theorem charsAt_text_eq (inside : x < width) : (text column row t).charsAt width x y =
    (if y = row ∧ column ≤ x then t[x - column]? else none).toList := by
  split
  · rename_i here
    obtain ⟨rfl, right⟩ := here
    have written := @charsAt_text width y column t (x - column) (by omega)
    rwa [Nat.add_sub_of_le right] at written
  · rename_i off
    by_cases level : y = row
    · rw [level, charsAt_text_of_lt (by omega)]
      rfl
    · rw [charsAt_of_level rfl level]
      rfl

/-- A shape writes to the rows from its highest down to that of its anchor. -/
theorem rows_of_footprint (member : spot ∈ s.footprint width) : s.highest ≤ spot.y ∧ spot.y ≤ s.anchor.2 := by
  cases s with
  | dot x y char =>
    rw [List.mem_singleton.mp member]
    exact ⟨Nat.le_refl _, Nat.le_refl _⟩
  | text x y chars =>
    obtain ⟨_, _, rfl⟩ := List.mem_map.mp member
    exact ⟨Nat.le_refl _, Nat.le_refl _⟩
  | erase x0 y0 x1 y1 =>
    obtain ⟨y, level, inRow⟩ := List.mem_flatMap.mp member
    rw [(mem_row inRow).2]
    exact mem_between.mp level
  | across x0 x1 y =>
    rw [(mem_row member).2]
    exact ⟨Nat.le_refl _, Nat.le_refl _⟩
  | heavy x0 x1 y =>
    rw [(mem_row member).2]
    exact ⟨Nat.le_refl _, Nat.le_refl _⟩
  | down x y0 y1 => exact mem_between.mp (mem_column_iff.mp member).2.2
  | frame x0 y0 x1 y1 =>
    rw [footprint] at member
    split at member
    · rename_i level
      rw [(mem_row member).2, highest, anchor, level]
      exact ⟨Nat.min_le_left _ _, Nat.le_max_left _ _⟩
    · split at member
      · exact mem_between.mp (mem_column_iff.mp member).2.2
      · rw [mem_edge_iff (by omega) (by omega)] at member
        rw [highest, anchor]
        dsimp only
        omega

theorem rows_of_level (level : s.level? = some row) : s.highest = row ∧ s.anchor.2 = row := by
  cases s with
  | dot | text | across | heavy => exact ⟨Option.some.inj level, Option.some.inj level⟩
  | erase | down | frame => cases level

end Shape

end SequenceDiagram
