import Mathlib.Data.List.Nodup
import SequenceDiagram.Proofs.Canvas.Drawing

/-! What a position of a drawn canvas holds. A shape writes a few characters to
each position, and drawing writes those of all shapes, one shape after the other.
A plain character takes the cell for itself, and the strokes after it add their
arms, so what a cell holds at the end is read off the characters written to it. -/
namespace SequenceDiagram

variable {c drawn : Canvas} {s : Shape} {shapes : List Shape} {spots : List Spot} {cell : Cell}
  {arms : Arms} {width height x y column row : Nat} {ch : Char} {t : Text}

/-- The characters that are written to a position, in order. -/
def Spot.charsAt (x y : Nat) (spots : List Spot) : Text :=
  (spots.filter fun s => s.x = x ∧ s.y = y).map Spot.char

/-- The characters that the shape writes to a position on a canvas of a width. -/
def Shape.charsAt (width x y : Nat) (s : Shape) : Text := Spot.charsAt x y (s.footprint width)

/-- A space or a stroke: no character that covers what is under it. -/
def Bare (ch : Char) : Prop := ch = ' ' ∨ (Arms.ofChar? ch).isSome = true

instance (ch : Char) : Decidable (Bare ch) := inferInstanceAs (Decidable (_ ∨ _))

namespace Arms

/-- Arms are shown by a stroke. -/
theorem ofChar?_glyph (held : arms ≠ .none) : (ofChar? arms.glyph).isSome = true := by
  obtain ⟨_ | _, _ | _, _ | _, _ | _⟩ := arms <;> first | rfl | exact absurd rfl held

/-- A stroke character has arms. -/
theorem ne_none_of_ofChar? (stroke : ofChar? ch = some arms) : arms ≠ .none := by
  rintro rfl
  have blank := glyph_of_ofChar? stroke
  rw [← blank] at stroke
  cases stroke

/-- Arms that are joined to others stay. -/
theorem union_ne_none {under : Arms} (held : arms ≠ .none) : under.union arms ≠ .none := by
  intro empty
  simp only [union, none, mk.injEq, Bool.or_eq_false_iff] at empty
  obtain ⟨⟨_, left⟩, ⟨_, right⟩, ⟨_, up⟩, _, down⟩ := empty
  exact held (by rw [none, mk.injEq]; exact ⟨left, right, up, down⟩)

end Arms

namespace Cell

/-- The cell after characters are written to it in order. -/
def writeAll (cell : Cell) (t : Text) : Cell := t.foldl write cell

theorem writeAll_append (cell : Cell) (t later : Text) :
    cell.writeAll (t ++ later) = (cell.writeAll t).writeAll later := List.foldl_append

theorem write_plain (plain : Arms.ofChar? ch = none) : cell.write ch = { char := ch } := by
  rw [write, plain]

theorem write_stroke (stroke : Arms.ofChar? ch = some arms) :
    cell.write ch = { cell with arms := cell.arms.union arms } := by
  rw [write, stroke]

/-- What is written last takes the cell if it is plain. -/
theorem writeAll_concat_plain (plain : Arms.ofChar? ch = none) : cell.writeAll (t ++ [ch]) = { char := ch } := by
  rw [writeAll_append]
  exact write_plain plain

/-- Spaces and strokes leave a blank cell without a character of its own. -/
theorem writeAll_of_bare (bare : ∀ ch ∈ t, Bare ch) (arms : Arms) :
    ∃ after, ({ char := ' ', arms } : Cell).writeAll t = { char := ' ', arms := after } := by
  induction t generalizing arms with
  | nil => exact ⟨arms, rfl⟩
  | cons ch rest ih =>
    have later : ∀ ch ∈ rest, Bare ch := fun ch member => bare ch (List.mem_cons_of_mem _ member)
    rcases bare ch List.mem_cons_self with rfl | stroke
    · exact ih later .none
    · obtain ⟨more, stroke⟩ := Option.isSome_iff_exists.mp stroke
      rw [writeAll, List.foldl_cons, write_stroke stroke]
      exact ih later (arms.union more)

/-- A cell has no character but the one it had or one that was written. -/
theorem char_writeAll_mem : (cell.writeAll t).char = cell.char ∨ (cell.writeAll t).char ∈ t := by
  induction t generalizing cell with
  | nil => exact .inl rfl
  | cons ch rest ih =>
    rcases @ih (cell.write ch) with same | member
    · cases stroke : Arms.ofChar? ch with
      | none =>
        rw [write_plain stroke] at same
        exact .inr (by rw [writeAll, List.foldl_cons, write_plain stroke]; exact same ▸ List.mem_cons_self)
      | some arms =>
        rw [write_stroke stroke] at same
        exact .inl (by rw [writeAll, List.foldl_cons, write_stroke stroke]; exact same)
    · exact .inr (List.mem_cons_of_mem _ member)

end Cell

namespace Spot

theorem charsAt_append (first second : List Spot) :
    charsAt x y (first ++ second) = charsAt x y first ++ charsAt x y second := by
  rw [charsAt, List.filter_append, List.map_append]
  rfl

theorem mem_charsAt : ch ∈ charsAt x y spots ↔ ⟨x, y, ch⟩ ∈ spots := by
  simp only [charsAt, List.mem_map, List.mem_filter, decide_eq_true_eq]
  constructor
  · rintro ⟨⟨_, _, _⟩, ⟨member, rfl, rfl⟩, rfl⟩
    exact member
  · intro member
    exact ⟨_, ⟨member, rfl, rfl⟩, rfl⟩

/-- Where nothing is written there are no characters. -/
theorem charsAt_eq_nil (off : ∀ spot ∈ spots, spot.x = x → spot.y ≠ y) : charsAt x y spots = [] := by
  rw [charsAt, List.map_eq_nil_iff, List.filter_eq_nil_iff]
  intro spot member here
  rw [decide_eq_true_eq] at here
  exact off spot member here.1 here.2

end Spot

namespace Shape

/-- The characters that the shape is made of. -/
def palette : Shape → Text
  | dot _ _ char => [char]
  | text _ _ chars => chars
  | erase .. => [' ']
  | across .. => ['─']
  | heavy .. => ['═']
  | down .. => ['│']
  | frame .. => ['─', '│', '┌', '┐', '└', '┘']

/-- The row of a shape that has only one. -/
def level? : Shape → Option Nat
  | dot _ y _ | text _ y _ | across _ _ y | heavy _ _ y => some y
  | erase .. | down .. | frame .. => none

private theorem char_of_mem_row {xs : List Nat} {spot : Spot} (member : spot ∈ Shape.row ch row xs) :
    spot.char = ch := by
  obtain ⟨_, _, rfl⟩ := List.mem_map.mp member
  rfl

private theorem char_of_mem_column {ys : List Nat} {spot : Spot} (member : spot ∈ Shape.column ch column ys) :
    spot.char = ch := by
  obtain ⟨_, _, rfl⟩ := List.mem_map.mp member
  rfl

private theorem char_of_mem_edge {left top right bottom : Nat} {spot : Spot}
    (member : spot ∈ edge left top right bottom) : spot.char ∈ ['─', '│', '┌', '┐', '└', '┘'] := by
  simp only [edge, List.mem_append, List.mem_cons, List.not_mem_nil, or_false] at member
  rcases member with (((upper | lower) | west) | east) | rfl | rfl | rfl | rfl
  · simp [char_of_mem_row upper]
  · simp [char_of_mem_row lower]
  · simp [char_of_mem_column west]
  · simp [char_of_mem_column east]
  all_goals simp

/-- A shape writes no character but its own. -/
theorem char_mem_palette {spot : Spot} (member : spot ∈ s.footprint width) : spot.char ∈ s.palette := by
  cases s with
  | dot x y char => rw [List.mem_singleton.mp member]; exact List.mem_singleton_self _
  | text x y chars =>
    obtain ⟨⟨char, offset⟩, numbered, rfl⟩ := List.mem_map.mp member
    exact List.mem_of_mem_take (List.fst_mem_of_mem_zipIdx numbered)
  | erase x0 y0 x1 y1 =>
    obtain ⟨y, _, inRow⟩ := List.mem_flatMap.mp member
    exact List.mem_singleton.mpr (char_of_mem_row inRow)
  | across x0 x1 y => exact List.mem_singleton.mpr (char_of_mem_row member)
  | heavy x0 x1 y => exact List.mem_singleton.mpr (char_of_mem_row member)
  | down x y0 y1 => exact List.mem_singleton.mpr (char_of_mem_column member)
  | frame x0 y0 x1 y1 =>
    rw [footprint] at member
    split at member
    · simp [char_of_mem_row member, palette]
    · split at member
      · simp [char_of_mem_column member, palette]
      · exact char_of_mem_edge member

theorem mem_palette_of_mem_charsAt (written : ch ∈ s.charsAt width x y) : ch ∈ s.palette :=
  char_mem_palette (Spot.mem_charsAt.mp written)

theorem bare_of_frame {x0 y0 x1 y1 : Nat} (drawn : ch ∈ (frame x0 y0 x1 y1).palette) : Bare ch := by
  simp only [palette, List.mem_cons, List.not_mem_nil, or_false] at drawn
  rcases drawn with rfl | rfl | rfl | rfl | rfl | rfl <;> exact .inr rfl

/-- A shape with one row writes to no other. -/
theorem charsAt_of_level (level : s.level? = some row) (off : y ≠ row) : s.charsAt width x y = [] := by
  refine Spot.charsAt_eq_nil fun spot member _ here => off ?_
  cases s with
  | dot x y char =>
    cases level
    rw [← here, List.mem_singleton.mp member]
  | text x y chars =>
    cases level
    obtain ⟨_, _, rfl⟩ := List.mem_map.mp member
    exact here.symm
  | across x0 x1 y =>
    cases level
    exact here.symm.trans (mem_row member).2
  | heavy x0 x1 y =>
    cases level
    exact here.symm.trans (mem_row member).2
  | erase | down | frame => cases level

private theorem charsAt_row {xs : List Nat} (distinct : xs.Nodup) :
    Spot.charsAt x y (Shape.row ch y xs) = if x ∈ xs then [ch] else [] := by
  simp only [Spot.charsAt, Shape.row, List.filter_map, Function.comp_def, and_true, List.filter_eq,
    distinct.count, List.map_replicate]
  split <;> rfl

private theorem nodup_between {a b : Nat} : (between a b).Nodup := List.nodup_range'

theorem charsAt_across {x0 x1 : Nat} (order : x0 ≤ x1) : (across x0 x1 y).charsAt width x y =
    if x0 ≤ x ∧ x ≤ x1 then ['─'] else [] := by
  simp only [charsAt, footprint, charsAt_row nodup_between, mem_between, Nat.min_eq_left order,
    Nat.max_eq_right order]

theorem charsAt_heavy {x0 x1 : Nat} (order : x0 ≤ x1) : (heavy x0 x1 y).charsAt width x y =
    if x0 ≤ x ∧ x ≤ x1 then ['═'] else [] := by
  simp only [charsAt, footprint, charsAt_row nodup_between, mem_between, Nat.min_eq_left order,
    Nat.max_eq_right order]

theorem charsAt_dot : (dot column y ch).charsAt width x y = if column = x then [ch] else [] := by
  by_cases here : column = x <;> simp [charsAt, footprint, Spot.charsAt, here]

private theorem charsAt_zipIdx {first offset : Nat} :
    Spot.charsAt (column + (first + offset)) y
      ((t.zipIdx first).map fun (char, place) => ⟨column + place, y, char⟩) = t[offset]?.toList := by
  induction t generalizing first offset with
  | nil => rfl
  | cons ch rest ih =>
    rw [List.zipIdx_cons, List.map_cons, ← List.singleton_append, Spot.charsAt_append]
    cases offset with
    | zero =>
      have others : Spot.charsAt (column + (first + 0)) y
          ((rest.zipIdx (first + 1)).map fun (char, place) => ⟨column + place, y, char⟩) = [] := by
        refine Spot.charsAt_eq_nil fun spot member here => ?_
        obtain ⟨⟨_, place⟩, numbered, rfl⟩ := List.mem_map.mp member
        have later := List.le_snd_of_mem_zipIdx numbered
        dsimp only at here later
        omega
      rw [others]
      simp [Spot.charsAt]
    | succ offset =>
      have rest := @ih (first + 1) offset
      rw [Nat.add_right_comm, Nat.add_assoc first] at rest
      rw [rest]
      simp [Spot.charsAt]

/-- A text writes its characters one beside the other, up to the right edge. -/
theorem charsAt_text {offset : Nat} (inside : column + offset < width) :
    (text column y t).charsAt width (column + offset) y = t[offset]?.toList := by
  have written := @charsAt_zipIdx y column (t.take (width - column)) 0 offset
  rw [Nat.zero_add] at written
  rw [charsAt, footprint, written, List.getElem?_take_of_lt (by omega)]

/-- Left of its first column a text writes nothing. -/
theorem charsAt_text_of_lt (left : x < column) : (text column y t).charsAt width x y = [] := by
  refine Spot.charsAt_eq_nil fun spot member here => ?_
  obtain ⟨_, _, rfl⟩ := List.mem_map.mp member
  dsimp only at here
  omega

end Shape

namespace Canvas

theorem inBounds_iff : c.inBounds x y = true ↔ x < c.width ∧ y < c.height := by
  rw [inBounds, Bool.and_eq_true, decide_eq_true_eq, decide_eq_true_eq]

theorem indexOf_lt (wide : x < c.width) (high : y < c.height) : c.indexOf x y < c.cells.size := by
  have rows : (y + 1) * c.width ≤ c.height * c.width := Nat.mul_le_mul_right _ high
  rw [Nat.succ_mul] at rows
  rw [indexOf, c.size_cells, Nat.mul_comm c.width]
  omega

/-- Positions on the canvas have numbers of their own. -/
theorem indexOf_inj (wide : x < c.width) (wideToo : column < c.width)
    (same : c.indexOf column row = c.indexOf x y) : column = x ∧ row = y := by
  have columns := congrArg (· % c.width) same
  simp only [indexOf, Nat.mul_add_mod_of_lt wide, Nat.mul_add_mod_of_lt wideToo] at columns
  rw [indexOf, indexOf, columns, Nat.add_right_cancel_iff] at same
  exact ⟨columns, Nat.eq_of_mul_eq_mul_right (by omega) same⟩

theorem cell?_of_lt (wide : x < c.width) (high : y < c.height) : ∃ cell, c.cell? x y = some cell := by
  rw [cell?, if_pos (inBounds_iff.mpr ⟨wide, high⟩)]
  exact ⟨_, Array.getElem?_eq_getElem (indexOf_lt wide high)⟩

theorem cell?_of_not_inBounds (off : ¬c.inBounds x y) : c.cell? x y = none := if_neg off

theorem size_of_filled (made : filled width height ch = .ok c) : c.width = width ∧ c.height = height := by
  rw [filled] at made
  split at made
  · cases made
    exact ⟨rfl, rfl⟩
  · cases made

theorem lt_of_cell? (held : c.cell? x y = some cell) : x < c.width ∧ y < c.height := by
  rw [cell?] at held
  split at held
  · rename_i on
    exact inBounds_iff.mp on
  · cases held

theorem cell?_filled (made : filled width height ch = .ok c) (wide : x < width) (high : y < height) :
    c.cell? x y = some { char := ch } := by
  rw [filled] at made
  split at made
  · cases made
    have on : x < width ∧ y < height := ⟨wide, high⟩
    rw [cell?, if_pos (inBounds_iff.mpr on), Array.getElem?_replicate, if_pos]
    simpa using @indexOf_lt ⟨width, height, Array.replicate (width * height) { char := ch }, by simp⟩ x y wide high
  · cases made

/-- A character is written to its own position and to no other. -/
theorem cell?_put (c : Canvas) (ch : Char) : (c.put column row ch).cell? x y =
    if column = x ∧ row = y then (c.cell? x y).map (·.write ch) else c.cell? x y := by
  have still : (c.put column row ch).inBounds x y = c.inBounds x y := by
    rw [inBounds, width_put, height_put, inBounds]
  by_cases target : c.inBounds column row
  · by_cases on : c.inBounds x y
    · rw [cell?, still, if_pos on, cell?, if_pos on, put]
      simp only [target, if_true, Array.getElem?_modify]
      by_cases here : column = x ∧ row = y
      · rw [if_pos here, if_pos (by rw [here.1, here.2]; rfl)]
        rfl
      · have elsewhere : c.indexOf column row ≠ c.indexOf x y :=
          fun same => here (indexOf_inj (inBounds_iff.mp on).1 (inBounds_iff.mp target).1 same)
        rw [if_neg here]
        exact if_neg elsewhere
    · have offToo : ¬(c.put column row ch).inBounds x y := still ▸ on
      rw [cell?_of_not_inBounds on, cell?_of_not_inBounds offToo, Option.map_none, ite_self]
  · have away : ¬(column = x ∧ row = y) ∨ c.cell? x y = none := by
      by_cases here : column = x ∧ row = y
      · exact .inr (cell?_of_not_inBounds (here.1 ▸ here.2 ▸ target))
      · exact .inl here
    rw [put, if_neg target]
    rcases away with away | away
    · rw [if_neg away]
    · rw [away, Option.map_none, ite_self]

theorem cell?_putAll (c : Canvas) (spots : List Spot) :
    (c.putAll spots).cell? x y = (c.cell? x y).map (·.writeAll (Spot.charsAt x y spots)) := by
  induction spots generalizing c with
  | nil => exact Option.map_id'.symm
  | cons spot rest ih =>
    have first : c.putAll (spot :: rest) = (c.put spot.x spot.y spot.char).putAll rest := rfl
    rw [first, ih, cell?_put, ← List.singleton_append, Spot.charsAt_append]
    by_cases here : spot.x = x ∧ spot.y = y
    · simp [here, Spot.charsAt, Cell.writeAll, Function.comp_def]
    · simp [here, Spot.charsAt]

/-- On a drawn canvas each position has had the characters that the shapes write
to it, one after the other. -/
theorem cell?_drawAll (done : c.drawAll shapes = .ok drawn) : drawn.width = c.width ∧ drawn.height = c.height ∧
    ∀ x y, drawn.cell? x y =
      (c.cell? x y).map (·.writeAll (shapes.flatMap (·.charsAt c.width x y))) := by
  induction shapes generalizing c with
  | nil =>
    cases done
    exact ⟨rfl, rfl, fun x y => Option.map_id'.symm⟩
  | cons s rest ih =>
    rcases c.draw_cases s with ⟨_, drew⟩ | ⟨_, refused⟩
    · rw [drawAll_cons drew] at done
      obtain ⟨width, height, cells⟩ := ih done
      rw [width_putAll] at width cells
      rw [height_putAll] at height
      refine ⟨width, height, fun x y => ?_⟩
      rw [cells, cell?_putAll, Option.map_map, List.flatMap_cons]
      refine congrFun (congrArg Option.map (funext fun cell => ?_)) _
      exact (cell.writeAll_append _ _).symm
    · rw [drawAll, List.foldlM_cons, refused] at done
      cases done

theorem get_of_cell (held : c.cell? x y = some cell) : c.get x y = .ok (c.shownBy x y cell) := by
  rw [get, held]

theorem cell_of_get (shown : c.get x y = .ok ch) : ∃ cell, c.cell? x y = some cell ∧ c.shownBy x y cell = ch := by
  rw [get] at shown
  split at shown
  · rename_i cell held
    exact ⟨cell, held, Except.ok.inj shown⟩
  · cases shown

/-- A cell without strokes shows its character, one with strokes shows a stroke. -/
theorem shownBy_cases (c : Canvas) (x y : Nat) (cell : Cell) :
    cell.arms = .none ∧ c.shownBy x y cell = cell.char ∨
      cell.arms ≠ .none ∧ (Arms.ofChar? (c.shownBy x y cell)).isSome = true := by
  rw [shownBy]
  by_cases bare : cell.arms = .none
  · exact .inl ⟨bare, if_pos (by simp [Arms.isEmpty, bare])⟩
  · refine .inr ⟨bare, ?_⟩
    rw [if_neg (by simpa [Arms.isEmpty] using bare)]
    split
    · exact Arms.ofChar?_glyph bare
    · rename_i joined
      exact Arms.ofChar?_glyph (by simpa [Arms.isEmpty] using joined)

/-- A cell with strokes is seen. -/
theorem shownBy_ne_blank (drawn : cell.arms ≠ .none) : c.shownBy x y cell ≠ ' ' := by
  intro blank
  rcases c.shownBy_cases x y cell with ⟨bare, _⟩ | ⟨_, stroke⟩
  · exact drawn bare
  · rw [blank] at stroke
    cases stroke

/-- A plain character that a cell shows is its own. -/
theorem char_of_shownBy (plain : Arms.ofChar? ch = none) (shown : c.shownBy x y cell = ch) :
    cell.char = ch := by
  rcases c.shownBy_cases x y cell with ⟨_, own⟩ | ⟨_, stroke⟩
  · exact own.symm.trans shown
  · rw [shown, plain] at stroke
    cases stroke

end Canvas

end SequenceDiagram
