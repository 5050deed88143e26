import SequenceDiagram.Canvas.CellByCell
import SequenceDiagram.Proofs.Canvas.Footprint

/-! A shape that is drawn cell by cell is drawn as a whole. Once its far corner has been
found on the canvas, none of its characters is refused, so the loops write the footprint
of the shape, in an order of their own; and where the corner is refused nothing has been
written yet. -/
namespace SequenceDiagram

variable {c : Canvas} {s : Shape} {spots more : List Spot} {cell : Cell} {ch : Char} {t : Text}
  {width height x y a b x0 y0 x1 y1 : Nat}

/-! ### Characters on one cell -/

namespace Cell

/-- A character that is written again changes nothing. -/
theorem write_write (cell : Cell) (ch : Char) : (cell.write ch).write ch = cell.write ch := by
  cases stroke : Arms.ofChar? ch with
  | none => rw [write_plain stroke, write_plain stroke]
  | some arms => rw [write_stroke stroke, write_stroke stroke, Arms.union_assoc, Arms.union_self]

/-- One character, however often it is written, is written once. -/
theorem writeAll_of_only (only : ∀ other ∈ t, other = ch) (full : t ≠ []) : cell.writeAll t = cell.write ch := by
  induction t generalizing cell with
  | nil => exact absurd rfl full
  | cons first rest ih =>
    obtain ⟨rfl, only⟩ := List.forall_mem_cons.mp only
    rcases List.eq_nil_or_concat rest with rfl | ⟨_, _, rfl⟩
    · rfl
    · rw [writeAll, List.foldl_cons]
      exact (ih only (by simp)).trans (cell.write_write first)

end Cell

namespace Canvas

/-- A canvas is told by its size and what its positions hold. -/
theorem eq_of_cell? {d : Canvas} (wide : c.width = d.width) (high : c.height = d.height)
    (same : ∀ x y, c.cell? x y = d.cell? x y) : c = d := by
  obtain ⟨width, height, cells, size⟩ := c
  obtain ⟨_, _, others, sizeToo⟩ := d
  cases wide
  cases high
  have equal : cells = others := by
    refine Array.ext (size.trans sizeToo.symm) fun index inside insideToo => ?_
    -- every number is that of a position: the one in the row it falls into
    rw [size] at inside
    have columns : 0 < width := Nat.pos_of_ne_zero fun none => by simp [none] at inside
    have on : (index % width < width) ∧ index / width < height :=
      ⟨Nat.mod_lt _ columns, Nat.div_lt_of_lt_mul inside⟩
    have here := same (index % width) (index / width)
    have number : index / width * width + index % width = index := Nat.div_add_mod' index width
    simp only [cell?, inBounds, on, decide_true, Bool.and_self, if_true, indexOf, number] at here
    rwa [Array.getElem?_eq_getElem, Array.getElem?_eq_getElem, Option.some.injEq] at here
  subst equal
  rfl

/-- Of a shape's characters, a position holds the one that the shape writes there. -/
theorem cell?_of_footprint (same : ∀ spot, spot ∈ spots ↔ spot ∈ s.footprint width) :
    (c.putAll spots).cell? x y = (c.cell? x y).map (·.writeAll (s.charAt? width x y).toList) := by
  have written (ch : Char) : ch ∈ Spot.charsAt x y spots ↔ s.charAt? width x y = some ch := by
    rw [Spot.mem_charsAt, same, Shape.mem_footprint_iff]
  rw [cell?_putAll]
  congr 1
  funext cell
  cases here : s.charAt? width x y with
  | none =>
    have nothing : Spot.charsAt x y spots = [] :=
      List.eq_nil_iff_forall_not_mem.mpr fun ch member => by simp [(written ch).mp member] at here
    rw [nothing, Option.toList_none]
  | some ch =>
    have only : ∀ other ∈ Spot.charsAt x y spots, other = ch := fun other member =>
      Option.some.inj (((written other).mp member).symm.trans here)
    exact Cell.writeAll_of_only only (List.ne_nil_of_mem ((written ch).mpr here))

/-- The order in which a shape writes its characters does not matter. -/
theorem putAll_of_footprint (same : ∀ spot, spot ∈ spots ↔ spot ∈ s.footprint width) :
    c.putAll spots = c.putAll (s.footprint width) := by
  refine eq_of_cell? ?_ ?_ fun x y => ?_
  · rw [width_putAll, width_putAll]
  · rw [height_putAll, height_putAll]
  · rw [cell?_of_footprint same, cell?_of_footprint fun _ => Iff.rfl]

end Canvas

/-! ### Steps that are not refused -/

namespace Writing

/-- On every canvas of this size, the steps write these characters and are not refused. -/
def Writes (width height : Nat) (steps : Writing Unit) (spots : List Spot) : Prop :=
  ∀ c : Canvas, c.width = width → c.height = height → steps.run c = .ok () (c.putAll spots)

theorem run_check (x y : Nat) :
    (check x y).run c = if c.inBounds x y then .ok () c else .error (c.outside x y) c := by
  rw [check, EStateM.run_bind, EStateM.run_get]
  dsimp only
  split <;> rfl

theorem ofCorners_eq (x0 y0 x1 y1 : Nat) : Area.ofCorners x0 y0 x1 y1 = ⟨min x0 x1, min y0 y1, max x0 x1, max y0 y1⟩ := by
  simp only [Area.ofCorners, Nat.min_def, Nat.max_def]
  split <;> split <;> rfl

theorem run_area (x0 y0 x1 y1 : Nat) : (area x0 y0 x1 y1).run c =
    if c.inBounds (max x0 x1) (max y0 y1) then .ok ⟨min x0 x1, min y0 y1, max x0 x1, max y0 y1⟩ c
    else .error (c.outside (max x0 x1) (max y0 y1)) c := by
  simp only [area, ofCorners_eq]
  rw [EStateM.run_bind, run_check]
  by_cases on : c.inBounds (max x0 x1) (max y0 y1)
  · rw [if_pos on, if_pos on]
    rfl
  · rw [if_neg on, if_neg on]

namespace Writes

theorem nothing : Writes width height (return) [] := fun _ _ _ => rfl

theorem andThen {first second : Writing Unit} (writes : Writes width height first spots)
    (later : Writes width height second more) :
    Writes width height (do first; second) (spots ++ more) := by
  intro c wide high
  rw [EStateM.run_bind, writes c wide high]
  dsimp only
  rw [later _ (Canvas.width_putAll.trans wide) (Canvas.height_putAll.trans high), Canvas.putAll, Canvas.putAll,
    Canvas.putAll, List.foldl_append]

/-- A loop writes what its rounds write, one after the other. -/
theorem loop {α : Type} {as : List α} {round : α → Writing Unit} {spots : α → List Spot}
    (each : ∀ a ∈ as, Writes width height (round a) (spots a)) :
    Writes width height (forM as round) (as.flatMap spots) := by
  induction as with
  | nil => exact nothing
  | cons a as ih =>
    obtain ⟨first, others⟩ := List.forall_mem_cons.mp each
    exact first.andThen (ih others)

theorem set (wide : x < width) (high : y < height) : Writes width height (Writing.set x y ch) [⟨x, y, ch⟩] := by
  rintro c rfl rfl
  have on : c.inBounds x y = true := Canvas.inBounds_iff.mpr ⟨wide, high⟩
  rw [Writing.set, EStateM.run_bind, run_check, if_pos on]
  rfl

/-- Where the far corner of a rectangle lies on the canvas, what follows goes on with
its corners in order. -/
theorem area {rest : Area → Writing Unit} (wide : max x0 x1 < width) (high : max y0 y1 < height)
    (writes : Writes width height (rest ⟨min x0 x1, min y0 y1, max x0 x1, max y0 y1⟩) spots) :
    Writes width height (Writing.area x0 y0 x1 y1 >>= rest) spots := by
  intro c same sameToo
  rw [EStateM.run_bind, run_area, if_pos (Canvas.inBounds_iff.mpr (same ▸ sameToo ▸ ⟨wide, high⟩))]
  exact writes c same sameToo

theorem row (wide : max a b < width) (high : y < height) :
    Writes width height (Writing.row ch a b y) (Shape.row ch y (Shape.between a b)) := by
  refine area wide (by omega) ?_
  rw [Nat.min_self, Shape.row, List.map_eq_flatMap]
  refine loop fun x member => set ?_ high
  exact Nat.lt_of_le_of_lt (Shape.mem_between.mp member).2 wide

theorem column (wide : x < width) (high : max a b < height) :
    Writes width height (Writing.column x a b) (Shape.column '│' x (Shape.between a b)) := by
  refine area (by omega) high ?_
  rw [Nat.min_self, Shape.column, List.map_eq_flatMap]
  refine loop fun y member => set wide ?_
  exact Nat.lt_of_le_of_lt (Shape.mem_between.mp member).2 high

theorem erase (wide : max x0 x1 < width) (high : max y0 y1 < height) :
    Writes width height (Writing.erase x0 y0 x1 y1) ((Shape.erase x0 y0 x1 y1).footprint width) := by
  refine area wide high (loop fun y level => ?_)
  rw [Shape.row, List.map_eq_flatMap]
  refine loop fun x member => set ?_ ?_
  · exact Nat.lt_of_le_of_lt (Shape.mem_between.mp member).2 wide
  · exact Nat.lt_of_le_of_lt (Shape.mem_between.mp level).2 high

/-- Of a text, the characters that have a column on the canvas are written. -/
theorem textFrom (high : y < height) (t : Text) (offset : Nat) : Writes width height (Writing.textFrom (x + offset) y t)
    (((t.take (width - (x + offset))).zipIdx offset).map fun (char, offset) => ⟨x + offset, y, char⟩) := by
  -- the column moves on with every character, so it is kept as an offset from the first
  induction t generalizing offset with
  | nil =>
    rw [List.take_nil]
    exact nothing
  | cons char rest ih =>
    rintro c rfl rfl
    rw [Writing.textFrom, EStateM.run_bind, EStateM.run_get]
    dsimp only
    by_cases past : c.width ≤ x + offset
    · rw [if_pos past, Nat.sub_eq_zero_of_le past]
      rfl
    · have inside : x + offset < c.width := Nat.lt_of_not_le past
      have one_more : c.width - (x + offset) = c.width - (x + (offset + 1)) + 1 := by omega
      rw [if_neg past, one_more, List.take_succ_cons, List.zipIdx_cons, List.map_cons]
      exact (set inside high).andThen (ih (offset + 1)) c rfl rfl

theorem text (high : y < height) (t : Text) :
    Writes width height (Writing.text x y t) ((Shape.text x y t).footprint width) := by
  rintro c rfl rfl
  rw [Writing.text, EStateM.run_bind, EStateM.run_get]
  dsimp only
  rw [if_pos high]
  exact textFrom high t 0 c rfl rfl

/-- The sides of a rectangle are written two opposite cells at a time. -/
theorem edge {a : Area} (wide : a.left ≤ a.right) (inWidth : a.right < width) (high : a.top ≤ a.bottom)
    (inHeight : a.bottom < height) : ∃ spots, Writes width height (Writing.edge a) spots ∧
      ∀ spot, spot ∈ spots ↔ spot ∈ Shape.edge a.left a.top a.right a.bottom := by
  have columns : Writes width height (forM (List.range' (a.left + 1) (a.right - (a.left + 1))) fun x => do
      Writing.set x a.top '─'
      Writing.set x a.bottom '─') _ :=
    loop fun x member => (set (by rw [List.mem_range'_1] at member; omega) (by omega)).andThen
      (set (by rw [List.mem_range'_1] at member; omega) inHeight)
  have rows : Writes width height (forM (List.range' (a.top + 1) (a.bottom - (a.top + 1))) fun y => do
      Writing.set a.left y '│'
      Writing.set a.right y '│') _ :=
    loop fun y member => (set (by omega) (by rw [List.mem_range'_1] at member; omega)).andThen
      (set inWidth (by rw [List.mem_range'_1] at member; omega))
  refine ⟨_, columns.andThen (rows.andThen ((set (by omega) (by omega)).andThen ((set inWidth (by omega)).andThen
    ((set (by omega) inHeight).andThen (set inWidth inHeight))))), ?_⟩
  -- the same spots: both sides are four runs and four corners, in another order
  rintro ⟨x, y, ch⟩
  rw [Shape.mem_edge_iff wide high]
  simp only [List.mem_append, List.mem_flatMap, List.mem_range'_1, List.mem_singleton, Spot.mk.injEq]
  clear columns rows
  constructor
  · rintro (⟨_, inner, ⟨rfl, rfl, rfl⟩ | ⟨rfl, rfl, rfl⟩⟩ | ⟨_, inner, ⟨rfl, rfl, rfl⟩ | ⟨rfl, rfl, rfl⟩⟩ |
      ⟨rfl, rfl, rfl⟩ | ⟨rfl, rfl, rfl⟩ | ⟨rfl, rfl, rfl⟩ | ⟨rfl, rfl, rfl⟩) <;> simp <;> omega
  · rintro (⟨rfl, rfl, inner⟩ | ⟨rfl, rfl, inner⟩ | ⟨rfl, rfl, inner⟩ | ⟨rfl, rfl, inner⟩ |
      ⟨rfl, rfl, rfl⟩ | ⟨rfl, rfl, rfl⟩ | ⟨rfl, rfl, rfl⟩ | ⟨rfl, rfl, rfl⟩)
    · exact .inl ⟨x, by omega, .inl ⟨rfl, rfl, rfl⟩⟩
    · exact .inl ⟨x, by omega, .inr ⟨rfl, rfl, rfl⟩⟩
    · exact .inr (.inl ⟨y, by omega, .inl ⟨rfl, rfl, rfl⟩⟩)
    · exact .inr (.inl ⟨y, by omega, .inr ⟨rfl, rfl, rfl⟩⟩)
    all_goals simp

theorem frame (wide : max x0 x1 < width) (high : max y0 y1 < height) :
    ∃ spots, Writes width height (Writing.frame x0 y0 x1 y1) spots ∧
      ∀ spot, spot ∈ spots ↔ spot ∈ (Shape.frame x0 y0 x1 y1).footprint width := by
  by_cases level : y0 = y1
  · subst level
    refine ⟨_, area wide high ?_, fun _ => Iff.rfl⟩
    dsimp only
    rw [Nat.min_self, Nat.max_self, if_pos rfl, Shape.footprint, if_pos rfl, ← Shape.between_ordered]
    exact row (by omega) (by omega)
  by_cases upright : x0 = x1
  · subst upright
    refine ⟨_, area wide high ?_, fun _ => Iff.rfl⟩
    dsimp only
    rw [Nat.min_self, Nat.max_self, if_neg (by omega), if_pos rfl, Shape.footprint, if_neg level, if_pos rfl,
      ← Shape.between_ordered]
    exact column (by omega) (by omega)
  · obtain ⟨spots, writes, same⟩ := @edge width height ⟨min x0 x1, min y0 y1, max x0 x1, max y0 y1⟩
      (Nat.le_trans (Nat.min_le_left _ _) (Nat.le_max_left _ _)) wide
      (Nat.le_trans (Nat.min_le_left _ _) (Nat.le_max_left _ _)) high
    refine ⟨spots, area wide high ?_, fun spot => ?_⟩
    · dsimp only
      rwa [if_neg (by omega), if_neg (by omega)]
    · rw [same, Shape.footprint, if_neg level, if_neg upright]

/-- A shape on the canvas writes its footprint, in an order of its own. -/
theorem draw (within : s.Within width height) : ∃ spots, Writes width height (Writing.draw s) spots ∧
    ∀ spot, spot ∈ spots ↔ spot ∈ s.footprint width := by
  cases s with
  | dot x y ch => exact ⟨_, set within.1 within.2, fun _ => Iff.rfl⟩
  | text x y t => exact ⟨_, text within t, fun _ => Iff.rfl⟩
  | erase x0 y0 x1 y1 => exact ⟨_, erase within.1 within.2, fun _ => Iff.rfl⟩
  | across x0 x1 y => exact ⟨_, row within.1 within.2, fun _ => Iff.rfl⟩
  | heavy x0 x1 y => exact ⟨_, row within.1 within.2, fun _ => Iff.rfl⟩
  | down x y0 y1 => exact ⟨_, column within.1 within.2, fun _ => Iff.rfl⟩
  | frame x0 y0 x1 y1 => exact frame within.1 within.2

end Writes

/-! ### Steps that are refused -/

theorem run_area_of_off {α : Type} {rest : Area → Writing α} (right : max x0 x1 = x) (bottom : max y0 y1 = y)
    (off : ¬(x < c.width ∧ y < c.height)) : (area x0 y0 x1 y1 >>= rest).run c = .error (c.outside x y) c := by
  subst right bottom
  rw [EStateM.run_bind, run_area, if_neg (mt Canvas.inBounds_iff.mp off)]

/-- A shape that does not lie on the canvas is refused before it writes anything. -/
theorem run_draw_of_off (off : ¬s.Within c.width c.height) :
    (draw s).run c = .error (c.outside s.anchor.1 s.anchor.2) c := by
  cases s with
  | dot x y ch =>
    have outside : ¬c.inBounds x y := mt Canvas.inBounds_iff.mp off
    rw [draw, set, EStateM.run_bind, run_check, if_neg outside]
    rfl
  | text x y t =>
    have below : ¬y < c.height := off
    rw [draw, text, EStateM.run_bind, EStateM.run_get]
    dsimp only
    rw [if_neg below]
    rfl
  | erase x0 y0 x1 y1 => exact run_area_of_off rfl rfl off
  | across x0 x1 y => exact run_area_of_off rfl (Nat.max_self y) off
  | heavy x0 x1 y => exact run_area_of_off rfl (Nat.max_self y) off
  | down x y0 y1 => exact run_area_of_off (Nat.max_self x) rfl off
  | frame x0 y0 x1 y1 => exact run_area_of_off rfl rfl off

/-- Drawn cell by cell, a shape is drawn as it is as a whole: entirely, or not at all. -/
theorem run_draw (c : Canvas) (s : Shape) : (draw s).run c =
    match c.draw s with
    | .ok next => .ok () next
    | .error refusal => .error refusal c := by
  rcases c.draw_cases s with ⟨within, drew⟩ | ⟨off, refused⟩
  · obtain ⟨spots, writes, same⟩ := Writes.draw within
    rw [drew, writes c rfl rfl, Canvas.putAll_of_footprint same]
  · rw [refused, run_draw_of_off off]

end Writing

end SequenceDiagram
