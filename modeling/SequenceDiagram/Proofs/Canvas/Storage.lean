import SequenceDiagram.Canvas.Storage
import SequenceDiagram.Proofs.Canvas.Record

/-! A canvas in its two lists. Both have an entry for every position, so whatever is
drawn on a stored canvas, or looked up in it, no entry is ever missed: a step ends as
it does on the canvas, in a refusal or not at all. -/
namespace SequenceDiagram

variable {c : Canvas} {s : Shape} {cell : Cell} {arms : Arms} {fill ch : Char} {spots : List Spot} {side : Side}
  {number width height x y : Nat}

theorem Canvas.entry_of_cell (held : c.cell? x y = some cell) : c.cells[y * c.width + x]? = some cell := by
  rw [cell?] at held
  split at held
  · exact held
  · cases held

namespace Storage

@[simp]
theorem width_ofCanvas : (ofCanvas c).width = c.width := rfl

@[simp]
theorem height_ofCanvas : (ofCanvas c).height = c.height := rfl

theorem admits_ofCanvas (c : Canvas) (s : Shape) : (ofCanvas c).admits s = s.fits c := by
  cases s <;> rfl

theorem ofCanvas_filled (made : Canvas.filled width height fill = .ok c) :
    Storage.filled width height fill = .ok (ofCanvas c) := by
  rw [Canvas.filled] at made
  split at made
  · rename_i roomy
    cases made
    rw [filled, if_pos roomy, ofCanvas, Array.map_replicate, Array.map_replicate]
  · cases made

/-- A character that is written changes the entries of its own cell. -/
theorem ofCanvas_put (held : c.cell? x y = some cell) (ch : Char) : ofCanvas (c.put x y ch) =
    { ofCanvas c with
      chars := (ofCanvas c).chars.setIfInBounds (y * c.width + x) (cell.write ch).char
      arms := (ofCanvas c).arms.setIfInBounds (y * c.width + x) (cell.write ch).arms } := by
  have entry := Canvas.entry_of_cell held
  have on : c.inBounds x y = true := Canvas.inBounds_iff.mpr (Canvas.lt_of_cell? held)
  have changed {α : Type} (part : Cell → α) : (c.cells.modify (y * c.width + x) (·.write ch)).map part =
      (c.cells.map part).setIfInBounds (y * c.width + x) (part (cell.write ch)) := by
    refine Array.ext_getElem? fun number => ?_
    rw [Array.getElem?_map, Array.getElem?_modify, Array.getElem?_setIfInBounds, Array.size_map, Array.getElem?_map]
    by_cases own : y * c.width + x = number
    · subst own
      have inside := (Array.getElem?_eq_some_iff.mp entry).1
      rw [if_pos rfl, if_pos rfl, if_pos inside, entry]
      rfl
    · rw [if_neg own, if_neg own]
  simp only [ofCanvas, Canvas.put, on, if_true, Canvas.indexOf, changed]

end Storage

namespace Storing
open Storage

/-- How a step ends on the lists of a canvas that ends so on the canvas itself. -/
def ending {α : Type} : EStateM.Result CanvasError Canvas α → EStateM.Result Halt Storage α
  | .ok a c => .ok a (ofCanvas c)
  | .error e c => .error (.refused e) (ofCanvas c)

theorem run_refuse {α : Type} (x y : Nat) :
    (refuse (α := α) x y).run (ofCanvas c) = .error (.refused (c.outside x y)) (ofCanvas c) := rfl

theorem run_numberOf (x y : Nat) : (numberOf x y).run (ofCanvas c) =
    if c.inBounds x y then .ok (y * c.width + x) (ofCanvas c) else .error (.refused (c.outside x y)) (ofCanvas c) := by
  rw [numberOf, EStateM.run_bind, EStateM.run_get]
  dsimp only
  by_cases on : x < c.width ∧ y < c.height
  · rw [if_pos (Canvas.inBounds_iff.mpr on)]
    exact congrArg (EStateM.run · _) (if_pos on)
  · rw [if_neg (mt Canvas.inBounds_iff.mp on)]
    exact (congrArg (EStateM.run · _) (if_neg on)).trans (run_refuse x y)

theorem char_entry (held : c.cell? x y = some cell) : (ofCanvas c).chars[y * c.width + x]? = some cell.char := by
  rw [ofCanvas, Array.getElem?_map, Canvas.entry_of_cell held, Option.map_some]

theorem arms_entry (held : c.cell? x y = some cell) : (ofCanvas c).arms[y * c.width + x]? = some cell.arms := by
  rw [ofCanvas, Array.getElem?_map, Canvas.entry_of_cell held, Option.map_some]

/-- An entry that is put where it stands changes nothing. -/
theorem setIfInBounds_own {α : Type} {list : Array α} {a : α} (held : list[number]? = some a) :
    list.setIfInBounds number a = list := by
  refine Array.ext_getElem? fun other => ?_
  rw [Array.getElem?_setIfInBounds]
  split
  · rename_i same
    subst same
    rw [if_pos (Array.getElem?_eq_some_iff.mp held).1, held]
  · rfl

theorem run_armsAt (held : c.cell? x y = some cell) :
    (armsAt (y * c.width + x)).run (ofCanvas c) = .ok cell.arms (ofCanvas c) := by
  rw [armsAt, EStateM.run_bind, EStateM.run_get]
  dsimp only
  rw [arms_entry held]
  rfl

theorem run_charAt (held : c.cell? x y = some cell) :
    (charAt (y * c.width + x)).run (ofCanvas c) = .ok cell.char (ofCanvas c) := by
  rw [charAt, EStateM.run_bind, EStateM.run_get]
  dsimp only
  rw [char_entry held]
  rfl

theorem run_putChar {stored : Storage} (inside : number < stored.chars.size) (ch : Char) :
    (putChar number ch).run stored = .ok () { stored with chars := stored.chars.setIfInBounds number ch } := by
  rw [putChar, EStateM.run_bind, EStateM.run_get]
  dsimp only
  rw [if_pos inside]
  rfl

theorem run_putArms {stored : Storage} (inside : number < stored.arms.size) (arms : Arms) :
    (putArms number arms).run stored = .ok () { stored with arms := stored.arms.setIfInBounds number arms } := by
  rw [putArms, EStateM.run_bind, EStateM.run_get]
  dsimp only
  rw [if_pos inside]
  rfl

/-- Writing a character misses no entry. -/
theorem run_write (x y : Nat) (ch : Char) :
    (write x y ch).run (ofCanvas c) = ending ((Writing.set x y ch).run c) := by
  rw [write, Writing.set, EStateM.run_bind, EStateM.run_bind, run_numberOf, Writing.run_check]
  by_cases on : c.inBounds x y
  · obtain ⟨wide, high⟩ := Canvas.inBounds_iff.mp on
    obtain ⟨cell, held⟩ := Canvas.cell?_of_lt wide high
    have inside : y * c.width + x < c.cells.size := Canvas.indexOf_lt wide high
    have chars : y * c.width + x < (ofCanvas c).chars.size := by rwa [ofCanvas, Array.size_map]
    have arms : y * c.width + x < (ofCanvas c).arms.size := by rwa [ofCanvas, Array.size_map]
    rw [if_pos on, if_pos on]
    dsimp only
    have after : ending ((modify (·.put x y ch) : Writing Unit).run c) = .ok () (ofCanvas (c.put x y ch)) := rfl
    rw [after, ofCanvas_put held]
    cases stroke : Arms.ofChar? ch with
    | none =>
      dsimp only
      rw [EStateM.run_bind, run_putChar chars, Cell.write_plain stroke]
      refine run_putArms ?_ .none
      exact arms
    | some more =>
      have own : (ofCanvas c).chars.setIfInBounds (y * c.width + x) cell.char = (ofCanvas c).chars :=
        setIfInBounds_own (char_entry held)
      dsimp only
      rw [EStateM.run_bind, run_armsAt held, Cell.write_stroke stroke, own]
      exact run_putArms arms _
  · rw [if_neg on, if_neg on]
    rfl

/-- A neighbour is looked at where there is one. -/
theorem run_met {there : Bool} (on : there = true → x < c.width ∧ y < c.height) (side : Side) :
    (met there x y side).run (ofCanvas c) = .ok (there && (c.armsAt x y).has side.opposite) (ofCanvas c) := by
  cases there with
  | false => rfl
  | true =>
    obtain ⟨wide, high⟩ := on rfl
    obtain ⟨cell, held⟩ := Canvas.cell?_of_lt wide high
    have here : c.armsAt x y = cell.arms := by rw [Canvas.armsAt, held]; rfl
    rw [met, if_pos rfl, EStateM.run_bind, EStateM.run_get]
    dsimp only
    rw [width_ofCanvas, EStateM.run_bind, run_armsAt held, Bool.true_and, here]
    rfl

/-- An arm is met by that of the neighbour, where the canvas goes on on its side. -/
theorem joined_eq (held : c.cell? x y = some cell) : c.joined x y =
    { left := cell.arms.left && decide (0 < x) && (c.armsAt (x - 1) y).has .right
      right := cell.arms.right && decide (x + 1 < c.width) && (c.armsAt (x + 1) y).has .left
      up := cell.arms.up && decide (0 < y) && (c.armsAt x (y - 1)).has .down
      down := cell.arms.down && decide (y + 1 < c.height) && (c.armsAt x (y + 1)).has .up } := by
  obtain ⟨wide, high⟩ := Canvas.lt_of_cell? held
  have here : c.armsAt x y = cell.arms := by rw [Canvas.armsAt, held]; rfl
  have beyond {nx ny : Nat} (off : ¬(nx < c.width ∧ ny < c.height)) : c.armsAt nx ny = .none := by
    rw [Canvas.armsAt, Canvas.cell?_of_not_inBounds (mt Canvas.inBounds_iff.mp off)]
    rfl
  rw [Canvas.joined, Arms.mk.injEq]
  simp only [Canvas.joins, here, Canvas.neighbour, Arms.has, Side.opposite]
  refine ⟨?_, ?_, ?_, ?_⟩
  · by_cases there : 0 < x <;> simp [there, Arms.none]
  · by_cases there : x + 1 < c.width
    · simp [there]
    · simp [there, beyond (mt And.left there), Arms.none]
  · by_cases there : 0 < y <;> simp [there, Arms.none]
  · by_cases there : y + 1 < c.height
    · simp [there]
    · simp [there, beyond (mt And.right there), Arms.none]

theorem run_joined (held : c.cell? x y = some cell) :
    (joined x y cell.arms).run (ofCanvas c) = .ok (c.joined x y) (ofCanvas c) := by
  obtain ⟨wide, high⟩ := Canvas.lt_of_cell? held
  have here : c.armsAt x y = cell.arms := by rw [Canvas.armsAt, held]; rfl
  have left := @run_met c (x - 1) y (cell.arms.left && decide (0 < x)) (fun _ => ⟨by omega, high⟩) .left
  have up := @run_met c x (y - 1) (cell.arms.up && decide (0 < y)) (fun _ => ⟨wide, by omega⟩) .up
  have right := @run_met c (x + 1) y (cell.arms.right && decide (x + 1 < (ofCanvas c).width))
    (fun there => ⟨of_decide_eq_true (Bool.and_eq_true _ _ ▸ there).2, high⟩) .right
  have down := @run_met c x (y + 1) (cell.arms.down && decide (y + 1 < (ofCanvas c).height))
    (fun there => ⟨wide, of_decide_eq_true (Bool.and_eq_true _ _ ▸ there).2⟩) .down
  unfold joined
  rw [EStateM.run_bind, EStateM.run_get]
  dsimp only
  rw [EStateM.run_bind, left]
  dsimp only
  rw [EStateM.run_bind, right]
  dsimp only
  rw [EStateM.run_bind, up]
  dsimp only
  rw [EStateM.run_bind, down]
  exact congrArg (EStateM.Result.ok · (ofCanvas c)) (joined_eq held).symm

/-- Looking up what a position shows misses no entry. -/
theorem run_look (c : Canvas) (x y : Nat) : (look x y).run (ofCanvas c) =
    match c.get x y with
    | .ok ch => .ok ch (ofCanvas c)
    | .error e => .error (.refused e) (ofCanvas c) := by
  rw [look, EStateM.run_bind, run_numberOf]
  by_cases on : c.inBounds x y
  · obtain ⟨wide, high⟩ := Canvas.inBounds_iff.mp on
    obtain ⟨cell, held⟩ := Canvas.cell?_of_lt wide high
    rw [if_pos on, Canvas.get_of_cell held, Canvas.shownBy]
    dsimp only
    rw [EStateM.run_bind, run_armsAt held]
    dsimp only
    split
    · exact run_charAt held
    · rw [EStateM.run_bind, run_joined held]
      dsimp only
      split <;> rfl
  · rw [if_neg on, Canvas.get, Canvas.cell?_of_not_inBounds on]

theorem run_writes (within : ∀ spot ∈ spots, spot.x < c.width ∧ spot.y < c.height) :
    (forM spots fun spot => write spot.x spot.y spot.char).run (ofCanvas c) = .ok () (ofCanvas (c.putAll spots)) := by
  induction spots generalizing c with
  | nil => rfl
  | cons spot rest ih =>
    obtain ⟨⟨wide, high⟩, others⟩ := List.forall_mem_cons.mp within
    have written : (write spot.x spot.y spot.char).run (ofCanvas c) =
        .ok () (ofCanvas (c.put spot.x spot.y spot.char)) := by
      rw [run_write, Writing.Writes.set wide high c rfl rfl]
      rfl
    rw [List.forM_cons, EStateM.run_bind, written]
    dsimp only
    rw [ih (by simpa using others)]
    rfl

/-- Drawing a shape misses no entry. -/
theorem run_draw (c : Canvas) (s : Shape) : (draw s).run (ofCanvas c) = ending ((Writing.draw s).run c) := by
  rw [Writing.run_draw, draw, EStateM.run_bind, EStateM.run_get]
  dsimp only
  rcases c.draw_cases s with ⟨within, drew⟩ | ⟨off, refused⟩
  · rw [drew]
    refine (congrArg (EStateM.run · _) (if_pos ?_)).trans (run_writes fun spot => Shape.footprint_within within)
    rw [admits_ofCanvas]
    exact Shape.fits_iff.mpr within
  · rw [refused]
    refine (congrArg (EStateM.run · _) (if_neg ?_)).trans (run_refuse _ _)
    rw [admits_ofCanvas]
    exact mt Shape.fits_iff.mp off

theorem attempt_ofCanvas (c : Canvas) (s : Shape) : attempt (ofCanvas c) s = ofCanvas (Writing.attempt c s) := by
  rw [attempt, Writing.attempt, run_draw]
  cases (Writing.draw s).run c <;> rfl

theorem attemptAll_ofCanvas (c : Canvas) (steps : List Shape) :
    attemptAll (ofCanvas c) steps = ofCanvas (Writing.attemptAll c steps) := by
  induction steps generalizing c with
  | nil => rfl
  | cons s rest ih => exact (congrArg (attemptAll · rest) (attempt_ofCanvas c s)).trans (ih _)

end Storing

namespace Storage

theorem size_chars (c : Canvas) : (ofCanvas c).chars.size = c.width * c.height := by
  rw [ofCanvas, Array.size_map, c.size_cells]

theorem size_arms (c : Canvas) : (ofCanvas c).arms.size = c.width * c.height := by
  rw [ofCanvas, Array.size_map, c.size_cells]

end Storage

/-! ### What is refused -/

/-- A position shows something unless it lies off the canvas. -/
theorem Canvas.get_eq_error_iff {e : CanvasError} :
    c.get x y = .error e ↔ ¬(x < c.width ∧ y < c.height) ∧ e = c.outside x y := by
  by_cases on : x < c.width ∧ y < c.height
  · obtain ⟨cell, held⟩ := cell?_of_lt on.1 on.2
    rw [get_of_cell held]
    exact ⟨fun shown => (nomatch shown), fun off => absurd on off.1⟩
  · rw [get, cell?_of_not_inBounds (mt inBounds_iff.mp on), Except.error.injEq, eq_comm]
    exact ⟨fun same => ⟨on, same⟩, And.right⟩

namespace Writing

/-- A shape is refused for its far corner, and then nothing of it has been drawn. -/
theorem run_draw_eq_error_iff {e : CanvasError} {after : Canvas} : (draw s).run c = .error e after ↔
    ¬s.Within c.width c.height ∧ e = c.outside s.anchor.1 s.anchor.2 ∧ after = c := by
  rw [run_draw]
  rcases c.draw_cases s with ⟨within, drew⟩ | ⟨off, refused⟩
  · rw [drew]
    exact ⟨fun failed => (nomatch failed), fun refused => absurd within refused.1⟩
  · rw [refused, EStateM.Result.error.injEq, eq_comm, eq_comm (a := c)]
    exact ⟨fun same => ⟨off, same⟩, And.right⟩

/-- A shape that is not refused writes to each position the character that it has there. -/
theorem run_draw_of_within (within : s.Within c.width c.height) : ∃ after, (draw s).run c = .ok () after ∧
    ∀ x y, after.cell? x y = (c.cell? x y).map (·.writeAll (s.charAt? c.width x y).toList) := by
  rcases c.draw_cases s with ⟨_, drew⟩ | ⟨off, _⟩
  · refine ⟨c.putAll (s.footprint c.width), ?_, fun x y => Canvas.cell?_of_footprint fun _ => Iff.rfl⟩
    rw [run_draw, drew]
  · exact absurd within off

end Writing

open Writing in
/-- Drawing is all or nothing. On whatever canvas steps have led to, drawn or refused, a
shape is refused if its far corner lies off the canvas, a text if its row does, and only
then. The refusal names this position and the size of the canvas, and nothing has been
drawn. A shape that is not refused is drawn as a whole, and of a text what has a column
on the canvas. What a position shows is refused off the canvas alone. In the two lists
that the canvas is stored in there is always an entry for every position, and none that
is asked for is ever missed. -/
theorem drawn_as_a_whole_or_not_at_all (made : Canvas.filled width height fill = .ok c) (steps : List Shape) :
    (∀ s e after, (draw s).run (attemptAll c steps) = .error e after ↔ ¬s.Within width height ∧
      e = .outOfBounds s.anchor.1 s.anchor.2 width height ∧ after = attemptAll c steps) ∧
    (∀ s : Shape, s.Within width height → ∃ after, (draw s).run (attemptAll c steps) = .ok () after ∧
      ∀ x y, after.cell? x y = ((attemptAll c steps).cell? x y).map (·.writeAll (s.charAt? width x y).toList)) ∧
    (∀ x y e, (attemptAll c steps).get x y = .error e ↔
      ¬(x < width ∧ y < height) ∧ e = .outOfBounds x y width height) ∧
    ∃ first, Storage.filled width height fill = .ok first ∧
      let stored := Storing.attemptAll first steps
      stored.chars.size = width * height ∧ stored.arms.size = width * height ∧
      (∀ s, (Storing.draw s).run stored = Storing.ending ((draw s).run (attemptAll c steps))) ∧
      (∀ x y, (Storing.look x y).run stored = match (attemptAll c steps).get x y with
        | .ok ch => .ok ch stored
        | .error e => .error (.refused e) stored) ∧
      (∀ s number after, (Storing.draw s).run stored ≠ .error (.missed number) after) ∧
      ∀ x y number after, (Storing.look x y).run stored ≠ .error (.missed number) after := by
  obtain ⟨wide, high⟩ := Canvas.size_of_filled made
  obtain ⟨sameWidth, sameHeight, _⟩ := attemptAll_spec c steps
  rw [wide] at sameWidth
  rw [high] at sameHeight
  have outside (x y : Nat) : (attemptAll c steps).outside x y = .outOfBounds x y width height := by
    rw [Canvas.outside, sameWidth, sameHeight]
  refine ⟨fun s e after => ?_, fun s within => ?_, fun x y e => ?_, _, Storage.ofCanvas_filled made, ?_⟩
  · rw [run_draw_eq_error_iff, sameWidth, sameHeight, outside]
  · rw [← sameWidth, ← sameHeight] at within
    have drawn := run_draw_of_within within
    rwa [sameWidth] at drawn
  · rw [Canvas.get_eq_error_iff, sameWidth, sameHeight, outside]
  · rw [Storing.attemptAll_ofCanvas]
    dsimp only
    refine ⟨?_, ?_, Storing.run_draw _, Storing.run_look _, fun s number after => ?_, fun x y number after => ?_⟩
    · rw [Storage.size_chars, sameWidth, sameHeight]
    · rw [Storage.size_arms, sameWidth, sameHeight]
    · rw [Storing.run_draw]
      cases (draw s).run (attemptAll c steps) <;> exact fun same => by cases same
    · rw [Storing.run_look]
      cases (attemptAll c steps).get x y <;> exact fun same => by cases same

open Writing in
/-- A frame with one corner past the right edge, on a canvas where a line was drawn, a text
was cut at the edge and a dot was refused; and a canvas without columns, where a text has
nothing to write and is not refused. -/
theorem drawn_as_a_whole_or_not_at_all_past_edge :
    (∃ c, Canvas.filled 4 3 '.' = .ok c ∧
      let now := attemptAll c [.across 3 0 1, .text 2 0 ['a', 'b', 'c'], .dot 0 3 'x']
      (draw (.frame 4 0 0 2)).run now = .error (.outOfBounds 4 2 4 3) now ∧
      ∃ after, (draw (.frame 3 2 0 0)).run now = .ok () after ∧
        after.cell? 3 0 = some { char := 'b', arms := ⟨true, false, false, true⟩ }) ∧
    ∃ c, Canvas.filled 0 2 '.' = .ok c ∧ (∃ after, (draw (.text 7 1 ['a'])).run (attemptAll c []) = .ok () after) ∧
      c.get 0 1 = .error (.outOfBounds 0 1 0 2) := by
  refine ⟨⟨_, if_pos (by decide), ?_⟩, _, if_pos (by decide), ?_⟩
  · obtain ⟨refused, drawn, _⟩ := @drawn_as_a_whole_or_not_at_all _ '.' 4 3 (if_pos (by decide))
      [.across 3 0 1, .text 2 0 ['a', 'b', 'c'], .dot 0 3 'x']
    obtain ⟨after, ran, cells⟩ := drawn (.frame 3 2 0 0) (by decide)
    exact ⟨(refused _ _ _).mpr ⟨by decide, rfl, rfl⟩, after, ran, (cells 3 0).trans (by decide)⟩
  · obtain ⟨_, drawn, shown, _⟩ := @drawn_as_a_whole_or_not_at_all _ '.' 0 2 (if_pos (by decide)) []
    obtain ⟨after, ran, _⟩ := drawn (.text 7 1 ['a']) (by decide)
    exact ⟨⟨after, ran⟩, (shown 0 1 _).mpr ⟨by decide, rfl⟩⟩

end SequenceDiagram
