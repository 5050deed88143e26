import Mathlib.Data.List.DropRight
import SequenceDiagram.Canvas.Basic
import SequenceDiagram.Proofs.Canvas.CellByCell

/-! A canvas as a record of writes. What a cell holds is told by the characters that
were written to it: the last plain one of them, and the strokes since. Strokes join, so
where only strokes are written it does not matter in which order, or how often. -/
namespace SequenceDiagram

variable {c : Canvas} {s : Shape} {steps first second : List Shape} {cell : Cell} {arms : Arms} {fill ch : Char}
  {t strokes others : Text} {width height x y : Nat}

/-- The character is a stroke. -/
def isStroke (ch : Char) : Bool := (Arms.ofChar? ch).isSome

/-- The arms of the strokes in a text, joined. -/
def Arms.ofStrokes (t : Text) : Arms := (t.filterMap ofChar?).foldl union none

/-- A cell that was filled with a character, after others were written to it: it has the
last plain one of them, and the arms of the strokes since. -/
def Cell.ofWritten (fill : Char) (t : Text) : Cell :=
  { char := (t.filter (!isStroke ·)).getLast?.getD fill, arms := .ofStrokes (t.rtakeWhile isStroke) }

namespace Shape

instance : Decidable (s.Within width height) :=
  match s with
  | text .. => inferInstanceAs (Decidable (_ < _))
  | dot .. | erase .. | across .. | heavy .. | down .. | frame .. => inferInstanceAs (Decidable (_ ∧ _))

/-- The character that a step writes to a position on a canvas of a size, if it writes
there. A step that is refused writes nothing. -/
def written? (width height x y : Nat) (s : Shape) : Option Char :=
  if s.Within width height then s.charAt? width x y else none

/-- The step writes only strokes. -/
def OnlyStrokes (width height : Nat) (s : Shape) : Prop :=
  ∀ x y ch, s.written? width height x y = some ch → isStroke ch

/-- Lines, and frames, write only strokes, and so does a text that is made of them. -/
theorem onlyStrokes_of_palette (drawn : ∀ ch ∈ s.palette, isStroke ch) : s.OnlyStrokes width height := by
  intro x y ch written
  rw [written?, Option.ite_none_right_eq_some] at written
  exact drawn ch (mem_palette_of_mem_charsAt (Spot.mem_charsAt.mpr (mem_footprint_iff.mpr written.2)))

end Shape

/-! ### What a cell holds -/

theorem Arms.ofStrokes_concat (stroke : ofChar? ch = some arms) (t : Text) :
    ofStrokes (t ++ [ch]) = (ofStrokes t).union arms := by
  rw [ofStrokes, List.filterMap_append, List.foldl_append, List.filterMap_cons_some stroke]
  rfl

namespace Cell

theorem writeAll_eq_ofWritten (fill : Char) (t : Text) : ({ char := fill } : Cell).writeAll t = ofWritten fill t := by
  -- from the end: the last character is the one that covers, or joins, what was there
  induction t using List.reverseRecOn with
  | nil => rfl
  | append_singleton t ch ih =>
    cases stroke : Arms.ofChar? ch with
    | none =>
      have plain : isStroke ch = false := by simp [isStroke, stroke]
      have last : List.rtakeWhile isStroke (t ++ [ch]) = [] := List.rtakeWhile_concat_neg _ _ _ (by simp [plain])
      rw [writeAll_concat_plain stroke, ofWritten, last]
      simp [plain, Arms.ofStrokes]
    | some arms =>
      have drawn : isStroke ch = true := by simp [isStroke, stroke]
      have last : List.rtakeWhile isStroke (t ++ [ch]) = t.rtakeWhile isStroke ++ [ch] :=
        List.rtakeWhile_concat_pos _ _ _ drawn
      rw [writeAll_append, ih, ofWritten, ofWritten, last, Arms.ofStrokes_concat stroke]
      refine (write_stroke stroke).trans ?_
      simp [drawn]

/-- Strokes may be written in any order, and more than once. -/
theorem writeAll_of_same_strokes (drawn : ∀ ch ∈ strokes, isStroke ch) (same : ∀ ch, ch ∈ strokes ↔ ch ∈ others) :
    cell.writeAll strokes = cell.writeAll others := by
  obtain ⟨char, arms⟩ := cell
  obtain ⟨after, written, runs⟩ := writeAll_of_strokes drawn char arms
  obtain ⟨afterOthers, writtenOthers, runsOthers⟩ :=
    writeAll_of_strokes (fun ch member => drawn ch ((same ch).mpr member)) char arms
  have equal : after = afterOthers := Arms.ext_has fun side => Bool.eq_iff_iff.mpr <| by
    simp only [runs, runsOthers, same]
  rw [written, writtenOthers, equal]

end Cell

/-! ### Steps one after the other -/

namespace Writing

theorem attempt_cases (c : Canvas) (s : Shape) :
    (s.Within c.width c.height ∧ attempt c s = c.putAll (s.footprint c.width)) ∨
      (¬s.Within c.width c.height ∧ attempt c s = c) := by
  rcases c.draw_cases s with ⟨within, drew⟩ | ⟨off, refused⟩
  · exact .inl ⟨within, by rw [attempt, run_draw, drew]⟩
  · exact .inr ⟨off, by rw [attempt, run_draw, refused]⟩

theorem width_attempt (c : Canvas) (s : Shape) : (attempt c s).width = c.width := by
  rcases attempt_cases c s with ⟨_, drew⟩ | ⟨_, still⟩
  · rw [drew, Canvas.width_putAll]
  · rw [still]

theorem height_attempt (c : Canvas) (s : Shape) : (attempt c s).height = c.height := by
  rcases attempt_cases c s with ⟨_, drew⟩ | ⟨_, still⟩
  · rw [drew, Canvas.height_putAll]
  · rw [still]

/-- A step writes its own character to a position, or nothing. -/
theorem cell?_attempt (c : Canvas) (s : Shape) : (attempt c s).cell? x y =
    (c.cell? x y).map (·.writeAll (s.written? c.width c.height x y).toList) := by
  rw [Shape.written?]
  rcases attempt_cases c s with ⟨within, drew⟩ | ⟨off, still⟩
  · rw [drew, if_pos within, Canvas.cell?_of_footprint fun _ => Iff.rfl]
  · rw [still, if_neg off]
    exact Option.map_id'.symm

/-- Every step writes to a canvas of the same size, and a position gets what the steps
write there, one after the other. -/
theorem attemptAll_spec (c : Canvas) (steps : List Shape) :
    (attemptAll c steps).width = c.width ∧ (attemptAll c steps).height = c.height ∧
      ∀ x y, (attemptAll c steps).cell? x y =
        (c.cell? x y).map (·.writeAll (steps.filterMap (·.written? c.width c.height x y))) := by
  induction steps generalizing c with
  | nil => exact ⟨rfl, rfl, fun x y => Option.map_id'.symm⟩
  | cons s rest ih =>
    obtain ⟨wide, high, cells⟩ := ih (attempt c s)
    rw [width_attempt] at wide cells
    rw [height_attempt] at high cells
    refine ⟨wide, high, fun x y => ?_⟩
    refine (cells x y).trans ?_
    rw [cell?_attempt, Option.map_map]
    congr 1
    funext cell
    have parts : (s :: rest).filterMap (·.written? c.width c.height x y) =
        (s.written? c.width c.height x y).toList ++ rest.filterMap (·.written? c.width c.height x y) := by
      cases here : s.written? c.width c.height x y <;> simp [here]
    rw [parts, Cell.writeAll_append]
    rfl

/-- Steps that write only strokes may be taken in any order, and more than once. -/
theorem attemptAll_of_same_strokes (drawn : ∀ s ∈ first, s.OnlyStrokes c.width c.height)
    (same : ∀ s, s ∈ first ↔ s ∈ second) : attemptAll c first = attemptAll c second := by
  obtain ⟨wide, high, cells⟩ := attemptAll_spec c first
  obtain ⟨wideToo, highToo, cellsToo⟩ := attemptAll_spec c second
  refine Canvas.eq_of_cell? (wide.trans wideToo.symm) (high.trans highToo.symm) fun x y => ?_
  rw [cells, cellsToo]
  congr 1
  funext cell
  refine Cell.writeAll_of_same_strokes (fun ch member => ?_) fun ch => ?_
  · obtain ⟨s, step, written⟩ := List.mem_filterMap.mp member
    exact drawn s step x y ch written
  · simp only [List.mem_filterMap, same]

end Writing

open Writing in
/-- A canvas is a record of what was written to its cells. Whatever steps were tried on
it, drawn or refused, a cell has the last plain character that they wrote to it, or the
filling if there is none, and the arms of the strokes since. A step writes what its shape
has at the position, and drawing it cell by cell is drawing it as a whole. So steps that
write only strokes can be taken in another order, or again, without a trace. -/
theorem canvas_records_writes (made : Canvas.filled width height fill = .ok c) :
    (∀ steps s, (draw s).run (attemptAll c steps) =
      match (attemptAll c steps).draw s with
      | .ok next => .ok () next
      | .error refusal => .error refusal (attemptAll c steps)) ∧
    (∀ steps, (attemptAll c steps).width = width ∧ (attemptAll c steps).height = height) ∧
    (∀ steps x y, x < width → y < height → (attemptAll c steps).cell? x y =
      some (.ofWritten fill (steps.filterMap (·.written? width height x y)))) ∧
    ∀ before first second after, (∀ s ∈ first, s.OnlyStrokes width height) → (∀ s, s ∈ first ↔ s ∈ second) →
      attemptAll c (before ++ first ++ after) = attemptAll c (before ++ second ++ after) ∧
      (attemptAll c (before ++ first ++ after)).display = (attemptAll c (before ++ second ++ after)).display := by
  obtain ⟨rfl, rfl⟩ := Canvas.size_of_filled made
  refine ⟨fun steps s => run_draw _ s, fun steps => ?_, fun steps x y wide high => ?_, ?_⟩
  · obtain ⟨wide, high, _⟩ := attemptAll_spec c steps
    exact ⟨wide, high⟩
  · obtain ⟨_, _, cells⟩ := attemptAll_spec c steps
    rw [cells, Canvas.cell?_filled made wide high, Option.map_some, Cell.writeAll_eq_ofWritten]
  · -- what the steps in front have left is a canvas of the same size
    intro before first second after drawn same
    obtain ⟨wide, high, _⟩ := attemptAll_spec c before
    have between : attemptAll (attemptAll c before) first = attemptAll (attemptAll c before) second :=
      attemptAll_of_same_strokes (by rwa [wide, high]) same
    have equal : attemptAll c (before ++ first ++ after) = attemptAll c (before ++ second ++ after) := by
      simp only [attemptAll, List.foldl_append] at between ⊢
      rw [between]
    exact ⟨equal, congrArg Canvas.display equal⟩

open Writing in
/-- A text that is cut at the edge, lines across it, one of them a frame of a single cell,
and a frame that is refused. The lines may be drawn twice and the other way round. -/
theorem canvas_records_writes_crossing : ∃ c, Canvas.filled 5 3 '.' = .ok c ∧
    let label := Shape.text 1 1 ['a', 'b', 'c', 'd', 'e']
    let lines := [Shape.down 2 2 0, .across 4 2 1, .frame 2 1 2 1, .frame 0 0 5 2]
    (attemptAll c (label :: lines)).cell? 2 1 = some { char := 'b', arms := ⟨true, true, true, true⟩ } ∧
    (attemptAll c (label :: lines)).cell? 4 1 = some { char := 'd', arms := ⟨true, true, false, false⟩ } ∧
    (attemptAll c (label :: lines)).cell? 0 0 = some { char := '.' } ∧
    attemptAll c (label :: lines) = attemptAll c (label :: (lines ++ lines.reverse)) := by
  obtain ⟨_, _, cells, again⟩ := @canvas_records_writes _ '.' 5 3 (if_pos (by decide))
  refine ⟨_, if_pos (by decide), ?_⟩
  intro label lines
  have drawn : ∀ s ∈ lines, ∀ ch ∈ s.palette, isStroke ch := by
    simp [lines, Shape.palette, isStroke, Arms.ofChar?]
  have twice := again [label] lines (lines ++ lines.reverse) []
    (fun s member => Shape.onlyStrokes_of_palette (drawn s member))
    (fun s => by simp only [List.mem_append, List.mem_reverse, or_self])
  simp only [List.append_nil, List.singleton_append] at twice
  refine ⟨?_, ?_, ?_, twice.1⟩
  · exact (cells (label :: lines) 2 1 (by decide) (by decide)).trans (congrArg some (by decide))
  · exact (cells (label :: lines) 4 1 (by decide) (by decide)).trans (congrArg some (by decide))
  · exact (cells (label :: lines) 0 0 (by decide) (by decide)).trans (congrArg some (by decide))

end SequenceDiagram
