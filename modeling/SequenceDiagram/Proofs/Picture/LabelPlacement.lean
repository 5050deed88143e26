import SequenceDiagram.Proofs.Picture.WholeLabels

/-! Where labels stand, whatever the layout has left for them. The columns that are
clear of the boxes on both sides, with a blank beside each, are all that a label ever
takes, and it is cut to their number and no shorter. A picture may be laid out by a
measure that knows nothing of boxes, so there may be few such columns or none. -/
namespace SequenceDiagram

variable {boxReach left right mid next column : Nat} {t : Text} {l : Label}

/-- What a room shows of a text: all of it, or as much as leaves a column for the mark
that something is missing. -/
structure Text.ShownIn (t : Text) (room : Nat) (shown : Text) : Prop where
  whole : t.length ≤ room → shown = t
  cut : room < t.length → 0 < room → shown = t.take (room - 1) ++ ['…']
  nothing : room = 0 → shown = []
  short : shown.length ≤ room

theorem Text.shownIn_fit (t : Text) (room : Nat) : t.ShownIn room (t.fit room) where
  whole := fit_of_length_le
  cut long roomy := by rw [fit, if_neg (Nat.not_le.mpr long), if_neg (Nat.ne_of_gt roomy)]
  nothing none := List.eq_nil_of_length_eq_zero (Nat.le_zero.mp (none ▸ length_fit_le))
  short := length_fit_le

/-- The columns that a label takes. -/
def Label.columns (l : Label) : List Nat := List.range' l.column l.text.length

theorem Label.mem_columns : column ∈ l.columns ↔ l.column ≤ column ∧ column < l.stop := by
  rw [columns, List.mem_range'_1, stop]

/-- The number of columns from the first to the last; there are none if the last lies on
the left of the first. -/
def roomBetween (first last : Int) : Nat := (last + 1 - first).toNat

/-- The room from a column on that is clear of a box around column `next`, with a blank
beside it. -/
theorem roomBetween_eq {first : Int} {start : Nat} (same : first = start) :
    roomBetween first (next - boxReach - 2) = next + 1 - (start + (boxReach + 2)) := by
  rw [roomBetween]
  omega

/-- The label of a bar is given the columns clear of the boxes on both sides. -/
theorem Label.ofBar_eq (boxReach left right : Nat) (t : Text) :
    let room := roomBetween (left + boxReach + 2) (right - boxReach - 2)
    ofBar boxReach left right t =
      { column := left + boxReach + 2 + (room - (t.fit room).length) / 2, text := t.fit room } := by
  intro room
  have same : right + 1 - (left + (boxReach + 1 + 1) + (boxReach + 1 + 1)) = room :=
    (@roomBetween_eq boxReach right _ (left + boxReach + 2) (by omega)).symm
  simp only [ofBar, Measure.labelPad, same]
  rfl

/-- A label that begins in a room and is short enough ends in it. -/
theorem Label.columns_between {first last : Int} (start : first ≤ l.column)
    (short : l.stop ≤ first + roomBetween first last) :
    ∀ column ∈ l.columns, first ≤ (column : Int) ∧ (column : Int) ≤ last := by
  intro column member
  rw [mem_columns] at member
  rw [roomBetween] at short
  omega

namespace Label

theorem columns_ofBar_clear : ∀ column ∈ (ofBar boxReach left right t).columns,
    (left + boxReach + 2 : Int) ≤ column ∧ (column : Int) ≤ right - boxReach - 2 := by
  rw [ofBar_eq]
  have short := @Text.length_fit_le t (roomBetween (left + boxReach + 2) (right - boxReach - 2))
  refine columns_between ?_ ?_
  · dsimp only
    omega
  · dsimp only [stop]
    omega

/-- Of the clear columns that the label of a bar leaves, as many are on its left as on its
right, or one less. -/
theorem ofBar_centred (visible : (ofBar boxReach left right t).text ≠ []) :
    let l := ofBar boxReach left right t
    let before : Int := l.column - (left + boxReach + 2)
    let after : Int := right - boxReach - 2 - (l.stop - 1)
    0 ≤ before ∧ before ≤ after ∧ after ≤ before + 1 := by
  rw [ofBar_eq] at visible ⊢
  have short := @Text.length_fit_le t (roomBetween (left + boxReach + 2) (right - boxReach - 2))
  have long := List.length_pos_iff.mpr visible
  have room := @roomBetween_eq boxReach right (left + boxReach + 2) (left + boxReach + 2) (by omega)
  dsimp only [stop] at short long ⊢
  omega

end Label

namespace Loop

/-- A loop reaches a column past the edge of its box, or further, but never past its full
reach. -/
theorem corner_bounds (boxReach mid : Nat) (next? : Option Nat) (t : Text) :
    mid + boxReach + 1 ≤ (ofMid boxReach mid next? t).corner ∧
      (ofMid boxReach mid next? t).corner ≤ mid + boxReach + 3 := by
  simp only [ofMid, Measure.loopReach]
  split <;> omega

/-- A loop turns back before the next box wherever there is a column for it to do so. -/
theorem corner_before_next (apart : mid + (2 * boxReach + 2) ≤ next) :
    (ofMid boxReach mid (some next) t).corner + boxReach < next := by
  simp only [ofMid, Measure.loopReach]
  omega

/-- The label of a loop begins beside the corner, with a blank between, and is given the
columns from there on that are clear of the next box. -/
theorem label_eq (boxReach mid next : Nat) (t : Text) :
    let l := ofMid boxReach mid (some next) t
    l.label = { column := l.corner + 2, text := t.fit (roomBetween (l.corner + 2) (next - boxReach - 2)) } := by
  intro l
  have same : next + 1 - (l.corner + Measure.labelPad + 1 + boxReach + Measure.labelPad + 1) =
      roomBetween (l.corner + 2) (next - boxReach - 2) :=
    (@roomBetween_eq boxReach next _ (l.corner + 2) (by omega)).symm
  rw [← same]
  rfl

theorem columns_clear (boxReach mid next : Nat) (t : Text) :
    let l := ofMid boxReach mid (some next) t
    ∀ column ∈ l.label.columns, (l.corner + 2 : Int) ≤ column ∧ (column : Int) ≤ next - boxReach - 2 := by
  intro l
  have label : l.label =
      { column := l.corner + 2, text := t.fit (roomBetween (l.corner + 2) (next - boxReach - 2)) } :=
    label_eq boxReach mid next t
  have short := @Text.length_fit_le t (roomBetween (l.corner + 2) (next - boxReach - 2))
  rw [label]
  refine Label.columns_between ?_ ?_
  · dsimp only
    omega
  · dsimp only [Label.stop]
    omega

end Loop

/-- Labels keep clear of the boxes, whatever measure the picture was laid out by. The
label of a bar stands centred in the columns clear of the boxes at both ends; a loop
turns back before the next box if there is a column between the boxes, and its label
stands in the columns right of its corner that are clear of that box. As much of a text
is shown as these columns hold, and the text of the last actor's loop is shown whole. A
label is placed exactly where the columns can be counted that its room is taken from. -/
theorem labels_keep_clear_of_boxes (n : Counting) (boxReach : Nat) (t : Text) :
    (∀ left right : Nat, left ≤ right →
      ((Label.ofBar? n boxReach left right t).isSome = true ↔
        n.holds (left + 2 * boxReach + 4) = true ∧ n.holds (right + 1) = true) ∧
      ∀ l, Label.ofBar? n boxReach left right t = some l →
        let first : Int := left + boxReach + 2
        let last : Int := right - boxReach - 2
        let before : Int := l.column - first
        let after : Int := last - (l.stop - 1)
        t.ShownIn (roomBetween first last) l.text ∧ (∀ column ∈ l.columns, first ≤ column ∧ column ≤ last) ∧
          (l.text ≠ [] → 0 ≤ before ∧ before ≤ after ∧ after ≤ before + 1)) ∧
    (∀ mid next : Nat,
      ((Loop.ofMid? n boxReach mid (some next) t).isSome = true ↔
        n.holds ((Loop.ofMid boxReach mid (some next) t).corner + boxReach + 4) = true ∧ n.holds (next + 1) = true) ∧
      ∀ l, Loop.ofMid? n boxReach mid (some next) t = some l →
        let first : Int := l.corner + 2
        let last : Int := next - boxReach - 2
        mid + boxReach + 1 ≤ l.corner ∧ l.corner ≤ mid + boxReach + 3 ∧
          (2 * boxReach + 2 ≤ (next : Int) - mid → (l.corner : Int) < next - boxReach) ∧
          t.ShownIn (roomBetween first last) l.label.text ∧
          ∀ column ∈ l.label.columns, first ≤ column ∧ column ≤ last) ∧
    ∀ mid : Nat,
      ((Loop.ofMid? n boxReach mid none t).isSome = true ↔ n.holds (mid + boxReach + 5) = true) ∧
      ∀ l, Loop.ofMid? n boxReach mid none t = some l →
        mid + boxReach + 1 ≤ l.corner ∧ l.corner ≤ mid + boxReach + 3 ∧
          l.label.text = t ∧ l.label.column = l.corner + 2 := by
  refine ⟨fun left right _ => ⟨?_, fun l counted => ?_⟩, fun mid next => ⟨?_, fun l counted => ?_⟩,
    fun mid => ⟨?_, fun l counted => ?_⟩⟩
  · simp only [Option.isSome_iff_exists, Label.ofBar?_eq_some_iff, exists_and_left, exists_eq', and_true]
  · cases (Label.ofBar?_eq_some_iff.mp counted).2
    refine ⟨?_, Label.columns_ofBar_clear, Label.ofBar_centred⟩
    rw [Label.ofBar_eq]
    exact t.shownIn_fit _
  · simp only [Option.isSome_iff_exists, Loop.ofMid?_eq_some_iff, exists_and_left, exists_eq', and_true]
  · cases (Loop.ofMid?_eq_some_iff.mp counted).2
    obtain ⟨outside, reach⟩ := Loop.corner_bounds boxReach mid (some next) t
    refine ⟨outside, reach, fun apart => ?_, ?_, Loop.columns_clear boxReach mid next t⟩
    · have before := @Loop.corner_before_next boxReach mid next t (by omega)
      omega
    · rw [Loop.label_eq]
      exact t.shownIn_fit _
  · simp only [Option.isSome_iff_exists, Loop.ofMid?_none_eq_some_iff, exists_and_left, exists_eq', and_true]
  · cases (Loop.ofMid?_none_eq_some_iff.mp counted).2
    obtain ⟨outside, reach⟩ := Loop.corner_bounds boxReach mid none t
    exact ⟨outside, reach, Text.fit_of_length_le (Nat.le_refl _), rfl⟩

/-- Of five characters a bar shows three and the mark in the four columns that are clear;
a loop finds a column to turn back in, but none for its label. Boxes that reach half of
all columns leave no place that could be counted. -/
theorem labels_keep_clear_of_boxes_narrow : ∃ l loop,
    Label.ofBar? .words 1 3 12 "hello".toList = some l ∧ l.text = "hel…".toList ∧
      (∀ column ∈ l.columns, 6 ≤ (column : Int) ∧ (column : Int) ≤ 9) ∧
      Loop.ofMid? .words 1 4 (some 8) "hello".toList = some loop ∧ (loop.corner : Int) < 8 - 1 ∧
      loop.label.text = [] ∧ Label.ofBar? .words (0x8000000000000000) 5 100 "hello".toList = none := by
  obtain ⟨bars, loops, -⟩ := labels_keep_clear_of_boxes .words 1 "hello".toList
  obtain ⟨-, placed⟩ := bars 3 12 (by decide)
  obtain ⟨shown, among, -⟩ := placed _ rfl
  obtain ⟨-, placed⟩ := loops 4 8
  obtain ⟨-, -, before, none, -⟩ := placed _ rfl
  obtain ⟨uncounted, -⟩ := (labels_keep_clear_of_boxes .words (0x8000000000000000) "hello".toList).1 5 100 (by decide)
  refine ⟨_, _, rfl, shown.cut (by decide) (by decide), among, rfl, before (by decide), none.nothing (by decide), ?_⟩
  exact Option.not_isSome_iff_eq_none.mp (mt uncounted.mp (by decide))

end SequenceDiagram
