import SequenceDiagram.Proofs.Canvas.Record

/-! Junctions tell the truth. An arm of a cell is met where the next cell on its side has
the arm that points back, and then the arm there is met as well. A cell of which some
arms are met shows these, so what it points to points back at it in the picture. Only a
cell that stands alone shows arms that lead nowhere. -/
namespace SequenceDiagram

variable {c first : Canvas} {cell next : Cell} {arms more : Arms} {side one other : Side} {fill ch : Char} {t : Text}
  {width height x y nx ny : Nat}

namespace Side

/-- The straight line that leaves a cell on the side. -/
def line : Side → Char
  | left | right => '─'
  | up | down => '│'

/-- The next position on a side; left of the first column and above the first row there is
none. -/
def next? (x y : Nat) : Side → Option (Nat × Nat)
  | left => if 0 < x then some (x - 1, y) else none
  | right => some (x + 1, y)
  | up => if 0 < y then some (x, y - 1) else none
  | down => some (x, y + 1)

theorem opposite_opposite (side : Side) : side.opposite.opposite = side := by cases side <;> rfl

/-- Whoever is next to a position on one side has it next to itself on the other. -/
theorem next?_opposite (beside : side.next? x y = some (nx, ny)) : side.opposite.next? nx ny = some (x, y) := by
  cases side with
  | left =>
    obtain ⟨inside, same⟩ := Option.ite_none_right_eq_some.mp beside
    cases same
    simp only [opposite, next?, Nat.sub_add_cancel inside]
  | up =>
    obtain ⟨inside, same⟩ := Option.ite_none_right_eq_some.mp beside
    cases same
    simp only [opposite, next?, Nat.sub_add_cancel inside]
  | right | down =>
    cases beside
    simp only [opposite, next?, Nat.succ_pos, if_true, Nat.add_sub_cancel]

end Side

/-! ### Arms and the characters that show them -/

namespace Arms

/-- Arms on two sides or more. -/
def Twofold (arms : Arms) : Prop := ∃ one other, one ≠ other ∧ arms.has one = true ∧ arms.has other = true

theorem eq_none_of_has (nowhere : ∀ side, arms.has side = false) : arms = .none := by
  obtain ⟨_, _, _, _⟩ := arms
  rw [none, mk.injEq]
  exact ⟨nowhere .left, nowhere .right, nowhere .up, nowhere .down⟩

/-- Every stroke has two arms or more. -/
theorem twofold_of_ofChar? (stroke : ofChar? ch = some arms) : arms.Twofold := by
  unfold ofChar? at stroke
  split at stroke <;> cases stroke
  all_goals first
    | exact ⟨.left, .right, by decide, rfl, rfl⟩
    | exact ⟨.up, .down, by decide, rfl, rfl⟩
    | exact ⟨.left, .up, by decide, rfl, rfl⟩
    | exact ⟨.left, .down, by decide, rfl, rfl⟩
    | exact ⟨.right, .up, by decide, rfl, rfl⟩
    | exact ⟨.right, .down, by decide, rfl, rfl⟩

theorem Twofold.union (held : arms.Twofold) (under : Arms) : (under.union arms).Twofold := by
  obtain ⟨one, other, apart, first, second⟩ := held
  refine ⟨one, other, apart, ?_, ?_⟩
  · rw [has_union, first, Bool.or_true]
  · rw [has_union, second, Bool.or_true]

/-- Two arms or more are shown as they are. -/
theorem ofChar?_glyph_of_twofold (held : arms.Twofold) : ofChar? arms.glyph = some arms := by
  obtain ⟨one, other, apart, first, second⟩ := held
  obtain ⟨_ | _, _ | _, _ | _, _ | _⟩ := arms <;> first
    | rfl
    | cases one <;> cases other <;> first
      | exact absurd rfl apart
      | exact absurd first Bool.false_ne_true
      | exact absurd second Bool.false_ne_true

/-- A single arm is shown as the straight line along it. -/
theorem glyph_of_single (single : ∀ other, arms.has other = true ↔ other = side) : arms.glyph = side.line := by
  have own (other : Side) : arms.has other = decide (other = side) := by
    rw [Bool.eq_iff_iff, single, decide_eq_true_iff]
  have here : arms = ⟨decide (.left = side), decide (.right = side), decide (.up = side), decide (.down = side)⟩ :=
    ext_has fun other => by rw [own]; cases other <;> rfl
  rw [here]
  cases side <;> rfl

theorem twofold_or_single (held : arms.has side = true) :
    arms.Twofold ∨ ∀ other, arms.has other = true ↔ other = side := by
  refine or_iff_not_imp_left.mpr fun unfold other => ⟨fun also => ?_, fun same => same ▸ held⟩
  by_contra apart
  exact unfold ⟨other, side, apart, also, held⟩

/-- Arms are shown by a stroke that has them. -/
theorem has_of_glyph (held : arms.has side = true) :
    ∃ shown, ofChar? arms.glyph = some shown ∧ shown.has side = true := by
  rcases twofold_or_single held with twofold | single
  · exact ⟨arms, ofChar?_glyph_of_twofold twofold, held⟩
  · rw [glyph_of_single single]
    cases side <;> exact ⟨_, rfl, rfl⟩

end Arms

/-! ### Arms that are met -/

namespace Canvas

/-- The cell at a position has an arm on the side, and the next cell there has the arm that
points back. -/
def MeetsOn (c : Canvas) (x y : Nat) (side : Side) : Prop :=
  ∃ cell nx ny next, c.cell? x y = some cell ∧ cell.arms.has side = true ∧
    side.next? x y = some (nx, ny) ∧ c.cell? nx ny = some next ∧ next.arms.has side.opposite = true

theorem armsAt_of_cell (held : c.cell? x y = some cell) : c.armsAt x y = cell.arms := by
  rw [armsAt, held]
  rfl

/-- Whoever is met on a side meets the cell on the other. -/
theorem MeetsOn.symm (meets : c.MeetsOn x y side) (beside : side.next? x y = some (nx, ny)) :
    c.MeetsOn nx ny side.opposite := by
  obtain ⟨cell, _, _, next, held, own, same, heldNext, back⟩ := meets
  cases beside.symm.trans same
  refine ⟨next, x, y, cell, heldNext, back, side.next?_opposite beside, held, ?_⟩
  rwa [side.opposite_opposite]

theorem neighbour_eq (c : Canvas) (x y : Nat) (side : Side) :
    c.neighbour x y side = ((side.next? x y).map fun p => c.armsAt p.1 p.2).getD .none := by
  cases side with
  | left => by_cases inside : 0 < x <;> simp [neighbour, Side.next?, inside]
  | up => by_cases inside : 0 < y <;> simp [neighbour, Side.next?, inside]
  | right | down => rfl

theorem exists_of_armsAt (run : (c.armsAt x y).has side = true) :
    ∃ cell, c.cell? x y = some cell ∧ cell.arms.has side = true := by
  cases held : c.cell? x y with
  | some cell => exact ⟨cell, rfl, armsAt_of_cell held ▸ run⟩
  | none =>
    rw [armsAt, held] at run
    cases side <;> cases run

theorem joins_iff_meetsOn : c.joins x y side = true ↔ c.MeetsOn x y side := by
  rw [joins, Bool.and_eq_true, neighbour_eq]
  constructor
  · rintro ⟨run, back⟩
    obtain ⟨cell, held, own⟩ := exists_of_armsAt run
    cases beside : side.next? x y with
    | none =>
      rw [beside] at back
      cases side <;> cases back
    | some p =>
      rw [beside] at back
      obtain ⟨next, heldNext, back⟩ := exists_of_armsAt back
      exact ⟨cell, p.1, p.2, next, held, own, beside, heldNext, back⟩
  · rintro ⟨cell, nx, ny, next, held, own, beside, heldNext, back⟩
    rw [beside, armsAt_of_cell held]
    refine ⟨own, ?_⟩
    rw [Option.map_some, Option.getD_some, armsAt_of_cell heldNext]
    exact back

theorem has_joined : (c.joined x y).has side = true ↔ c.MeetsOn x y side := by
  rw [← joins_iff_meetsOn]
  cases side <;> exact Iff.rfl

/-- A cell that is met somewhere shows the arms that are met. -/
theorem get_of_meets (meets : c.MeetsOn x y side) : c.get x y = .ok (c.joined x y).glyph := by
  obtain ⟨cell, _, _, _, held, _⟩ := id meets
  have some_side : c.joined x y ≠ .none := fun empty => by
    have run := has_joined.mpr meets
    rw [empty] at run
    cases side <;> cases run
  exact get_of_joins held (fun side => Bool.eq_iff_iff.mpr (joins_iff_meetsOn.trans has_joined.symm)) some_side

/-- A cell with strokes that is met nowhere shows all its arms. -/
theorem get_of_alone (held : c.cell? x y = some cell) (drawn : cell.arms ≠ .none)
    (alone : ∀ side, ¬c.MeetsOn x y side) : c.get x y = .ok cell.arms.glyph := by
  have unmet : c.joined x y = .none :=
    Arms.eq_none_of_has fun side => Bool.eq_false_iff.mpr (mt has_joined.mp (alone side))
  have visible : cell.arms.isEmpty = false := by rwa [Arms.isEmpty, beq_eq_false_iff_ne]
  rw [get_of_cell held, shownBy, visible, unmet]
  rfl

/-- What a cell points to points back at it in the picture. -/
theorem MeetsOn.points_back (meets : c.MeetsOn x y side) : ∃ nx ny shown arms, side.next? x y = some (nx, ny) ∧
    c.get nx ny = .ok shown ∧ Arms.ofChar? shown = some arms ∧ arms.has side.opposite = true := by
  obtain ⟨_, nx, ny, _, _, _, beside, _⟩ := id meets
  have back := meets.symm beside
  obtain ⟨arms, stroke, has⟩ := Arms.has_of_glyph (has_joined.mpr back)
  exact ⟨nx, ny, _, arms, beside, get_of_meets back, stroke, has⟩

end Canvas

/-! ### Strokes on a canvas that was drawn on -/

/-- The strokes that are written to a cell leave it on two sides or more. -/
theorem Cell.twofold_writeAll (t : Text) (before : cell.arms ≠ .none → cell.arms.Twofold) :
    (cell.writeAll t).arms ≠ .none → (cell.writeAll t).arms.Twofold := by
  induction t generalizing cell with
  | nil => exact before
  | cons ch rest ih =>
    refine @ih (cell.write ch) ?_
    cases stroke : Arms.ofChar? ch with
    | none =>
      rw [write_plain stroke]
      exact fun drawn => absurd rfl drawn
    | some more =>
      rw [write_stroke stroke]
      exact fun _ => (Arms.twofold_of_ofChar? stroke).union cell.arms

theorem Writing.twofold_of_cell (made : Canvas.filled width height fill = .ok c) {steps : List Shape}
    (held : (attemptAll c steps).cell? x y = some cell) (drawn : cell.arms ≠ .none) : cell.arms.Twofold := by
  obtain ⟨_, _, cells⟩ := attemptAll_spec c steps
  rw [cells] at held
  obtain ⟨blank, filled, rfl⟩ := Option.map_eq_some_iff.mp held
  obtain ⟨wide, high⟩ := Canvas.size_of_filled made
  have inside := Canvas.lt_of_cell? filled
  rw [wide, high] at inside
  rw [Canvas.cell?_filled made inside.1 inside.2, Option.some.injEq] at filled
  subst filled
  exact Cell.twofold_writeAll _ (fun drawn => absurd rfl drawn) drawn

open Writing in
/-- Junctions tell the truth. On a canvas that steps have been tried on, drawn or refused,
let a cell hold strokes. If two of its arms or more are met, it shows the character with
exactly these; if one is, the straight line along it; if none is, the character with all
its own. Where an arm is met, the next cell on its side shows a character that points
back. So no corner, tee or cross points at nothing but one that stands alone. -/
theorem junctions_point_at_each_other (made : Canvas.filled width height fill = .ok first) (steps : List Shape)
    (held : (attemptAll first steps).cell? x y = some cell) (drawn : cell.arms ≠ .none) :
    let c := attemptAll first steps
    ∃ ch, c.get x y = .ok ch ∧
      ((∃ one other, one ≠ other ∧ c.MeetsOn x y one ∧ c.MeetsOn x y other) →
        ∃ arms, Arms.ofChar? ch = some arms ∧ ∀ side, arms.has side = true ↔ c.MeetsOn x y side) ∧
      (∀ side, (∀ other, c.MeetsOn x y other ↔ other = side) → ch = side.line) ∧
      ((∀ side, ¬c.MeetsOn x y side) → Arms.ofChar? ch = some cell.arms) ∧
      (∀ side, c.MeetsOn x y side → ∃ nx ny shown arms, side.next? x y = some (nx, ny) ∧
        c.get nx ny = .ok shown ∧ Arms.ofChar? shown = some arms ∧ arms.has side.opposite = true) ∧
      ((∃ side, c.MeetsOn x y side) → ch ≠ '─' → ch ≠ '│' →
        ∀ arms side, Arms.ofChar? ch = some arms → arms.has side = true → c.MeetsOn x y side) := by
  intro c
  by_cases alone : ∀ side, ¬c.MeetsOn x y side
  · refine ⟨_, Canvas.get_of_alone held drawn alone, ?_, fun side only => ?_, fun _ => ?_, fun side meets => ?_, ?_⟩
    · rintro ⟨one, _, _, meets, _⟩
      exact absurd meets (alone one)
    · exact absurd ((only side).mpr rfl) (alone side)
    · exact Arms.ofChar?_glyph_of_twofold (twofold_of_cell made held drawn)
    · exact absurd meets (alone side)
    · rintro ⟨side, meets⟩
      exact absurd meets (alone side)
  · obtain ⟨met, meets⟩ := not_forall_not.mp alone
    refine ⟨_, Canvas.get_of_meets meets, ?_, fun side only => ?_, fun nowhere => absurd meets (nowhere met),
      fun side meets => meets.points_back, fun _ level upright arms side stroke run => ?_⟩
    · rintro ⟨one, other, apart, meetsOne, meetsOther⟩
      have twofold : (c.joined x y).Twofold :=
        ⟨one, other, apart, Canvas.has_joined.mpr meetsOne, Canvas.has_joined.mpr meetsOther⟩
      exact ⟨_, Arms.ofChar?_glyph_of_twofold twofold, fun side => Canvas.has_joined⟩
    · exact Arms.glyph_of_single fun other => Canvas.has_joined.trans (only other)
    · rcases Arms.twofold_or_single (Canvas.has_joined.mpr meets) with twofold | single
      · rw [Arms.ofChar?_glyph_of_twofold twofold, Option.some.injEq] at stroke
        subst stroke
        exact Canvas.has_joined.mp run
      · -- a straight line, which may well end here
        have straight := Arms.glyph_of_single single
        cases met with
        | left | right => exact absurd straight level
        | up | down => exact absurd straight upright

open Writing in
/-- A line with another that ends on it: the crossing of their strokes has all four arms,
three of them are met, and it shows a tee. -/
theorem junctions_point_at_each_other_tee : ∃ first, Canvas.filled 5 3 '.' = .ok first ∧
    let c := attemptAll first [.down 2 0 2, .across 2 4 1, .dot 2 1 '┼']
    c.cell? 2 1 = some { char := '.', arms := ⟨true, true, true, true⟩ } ∧ c.get 2 1 = .ok '├' ∧
      c.MeetsOn 2 1 .up ∧ ¬c.MeetsOn 2 1 .left ∧
      ∃ shown arms, c.get 2 0 = .ok shown ∧ Arms.ofChar? shown = some arms ∧ arms.has .down = true := by
  refine ⟨_, if_pos (by decide), ?_⟩
  have held : (attemptAll ⟨5, 3, Array.replicate (5 * 3) { char := '.' }, by simp⟩
      [.down 2 0 2, .across 2 4 1, .dot 2 1 '┼']).cell? 2 1 =
      some { char := '.', arms := ⟨true, true, true, true⟩ } := by decide
  obtain ⟨ch, shown, _, _, _, back, _⟩ :=
    @junctions_point_at_each_other _ _ '.' 5 3 2 1 (if_pos (by decide)) _ held (by decide)
  have meets : (attemptAll ⟨5, 3, Array.replicate (5 * 3) { char := '.' }, by simp⟩
      [.down 2 0 2, .across 2 4 1, .dot 2 1 '┼']).MeetsOn 2 1 .up := Canvas.joins_iff_meetsOn.mp (by decide)
  obtain ⟨_, _, above, arms, beside, seen, stroke, run⟩ := back .up meets
  cases beside
  exact ⟨held, by decide, meets, mt Canvas.joins_iff_meetsOn.mpr (by decide), above, arms, seen, stroke, run⟩

end SequenceDiagram
