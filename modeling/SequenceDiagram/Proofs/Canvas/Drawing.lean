import SequenceDiagram.Canvas.Shape
import SequenceDiagram.Proofs.Attempt

/-! Drawing on a canvas. Nothing that is drawn changes the size of the canvas, so
whether a list of shapes can be drawn is settled by the canvas it starts on: each
shape has to lie on it. A shape that does writes all of its characters there, and
one that does not ends the drawing with its own position. -/
namespace SequenceDiagram

variable {c next : Canvas} {s : Shape} {shapes : List Shape} {spots : List Spot} {error : CanvasError}
  {width height a b n x y : Nat} {char : Char}

namespace Shape

/-- The shape may be drawn on a canvas of this size. -/
def Within (width height : Nat) : Shape → Prop
  | text _ y _ => y < height
  | s => s.anchor.1 < width ∧ s.anchor.2 < height

theorem fits_iff : s.fits c = true ↔ s.Within c.width c.height := by
  cases s <;> simp [fits, Within, Canvas.inBounds]

theorem mem_between : n ∈ between a b ↔ min a b ≤ n ∧ n ≤ max a b := by
  rw [between, List.mem_range'_1]
  omega

theorem between_ordered : between (min a b) (max a b) = between a b := by
  rw [between, between, Nat.min_eq_left (by omega), Nat.max_eq_right (by omega)]

theorem mem_inside : n ∈ inside a b ↔ min a b < n ∧ n < max a b := by
  rw [inside, List.mem_range'_1]
  omega

theorem mem_row {xs : List Nat} {spot : Spot} (member : spot ∈ row char y xs) :
    spot.x ∈ xs ∧ spot.y = y := by
  obtain ⟨x, held, rfl⟩ := List.mem_map.mp member
  exact ⟨held, rfl⟩

private theorem mem_column {ys : List Nat} {spot : Spot} (member : spot ∈ column char x ys) :
    spot.x = x ∧ spot.y ∈ ys := by
  obtain ⟨y, held, rfl⟩ := List.mem_map.mp member
  exact ⟨rfl, held⟩

private theorem mem_edge {left top right bottom : Nat} {spot : Spot} (wide : left ≤ right) (high : top ≤ bottom)
    (member : spot ∈ edge left top right bottom) : spot.x ≤ right ∧ spot.y ≤ bottom := by
  simp only [edge, List.mem_append, List.mem_cons, List.not_mem_nil, or_false] at member
  rcases member with (((upper | lower) | west) | east) | rfl | rfl | rfl | rfl
  · obtain ⟨inner, level⟩ := mem_row upper
    rw [mem_inside] at inner
    omega
  · obtain ⟨inner, level⟩ := mem_row lower
    rw [mem_inside] at inner
    omega
  · obtain ⟨level, inner⟩ := mem_column west
    rw [mem_inside] at inner
    omega
  · obtain ⟨level, inner⟩ := mem_column east
    rw [mem_inside] at inner
    omega
  · exact ⟨wide, high⟩
  · exact ⟨Nat.le_refl _, high⟩
  · exact ⟨wide, Nat.le_refl _⟩
  · exact ⟨Nat.le_refl _, Nat.le_refl _⟩

/-- Every character of a shape on the canvas lands on the canvas: the anchor is
the far corner, and a text is cut at the right edge. -/
theorem footprint_within (within : s.Within width height) {spot : Spot}
    (member : spot ∈ s.footprint width) : spot.x < width ∧ spot.y < height := by
  cases s with
  | dot x y char =>
    rw [List.mem_singleton.mp member]
    exact within
  | text x y chars =>
    obtain ⟨⟨char, offset⟩, numbered, rfl⟩ := List.mem_map.mp member
    obtain ⟨inside, _⟩ := List.getElem?_eq_some_iff.mp (List.mem_zipIdx_iff_getElem?.mp numbered)
    rw [List.length_take] at inside
    exact ⟨by simp only at inside ⊢; omega, within⟩
  | erase x0 y0 x1 y1 =>
    obtain ⟨y, level, inRow⟩ := List.mem_flatMap.mp member
    obtain ⟨inner, same⟩ := mem_row inRow
    simp only [Within, anchor, mem_between] at within level inner
    omega
  | across x0 x1 y =>
    obtain ⟨inner, same⟩ := mem_row member
    simp only [Within, anchor, mem_between] at within inner
    omega
  | heavy x0 x1 y =>
    obtain ⟨inner, same⟩ := mem_row member
    simp only [Within, anchor, mem_between] at within inner
    omega
  | down x y0 y1 =>
    obtain ⟨same, inner⟩ := mem_column member
    simp only [Within, anchor, mem_between] at within inner
    omega
  | frame x0 y0 x1 y1 =>
    simp only [Within, anchor] at within
    rw [footprint] at member
    split at member
    · obtain ⟨inner, same⟩ := mem_row member
      rw [mem_between] at inner
      omega
    · split at member
      · obtain ⟨same, inner⟩ := mem_column member
        rw [mem_between] at inner
        omega
      · have bounds := mem_edge (by omega) (by omega) member
        omega

end Shape

namespace Canvas

/-- A canvas whose cells can be numbered is made in the size asked for. -/
theorem blank_succeeds (roomy : width * height ≤ maxArea) :
    ∃ c, blank width height = .ok c ∧ c.width = width ∧ c.height = height :=
  ⟨_, if_pos roomy, rfl, rfl⟩

@[simp]
theorem width_put : (c.put x y char).width = c.width := by
  unfold put
  split <;> rfl

@[simp]
theorem height_put : (c.put x y char).height = c.height := by
  unfold put
  split <;> rfl

@[simp]
theorem width_putAll : (c.putAll spots).width = c.width := by
  induction spots generalizing c with
  | nil => rfl
  | cons spot rest ih => exact ih.trans width_put

@[simp]
theorem height_putAll : (c.putAll spots).height = c.height := by
  induction spots generalizing c with
  | nil => rfl
  | cons spot rest ih => exact ih.trans height_put

@[simp]
theorem outside_putAll : (c.putAll spots).outside x y = c.outside x y := by
  rw [outside, width_putAll, height_putAll, outside]

theorem drawAll_cons (done : c.draw s = .ok next) : c.drawAll (s :: shapes) = next.drawAll shapes := by
  rw [drawAll, List.foldlM_cons, done]
  rfl

/-- A shape is drawn on the canvas as it is, or refused for its own position. -/
theorem draw_cases (c : Canvas) (s : Shape) :
    (s.Within c.width c.height ∧ c.draw s = .ok (c.putAll (s.footprint c.width))) ∨
      (¬s.Within c.width c.height ∧ c.draw s = .error (c.outside s.anchor.1 s.anchor.2)) := by
  rw [draw, ← Shape.fits_iff]
  by_cases fits : s.fits c
  · exact .inl ⟨fits, if_pos fits⟩
  · exact .inr ⟨fits, if_neg fits⟩

/-- Shapes that all lie on the canvas are all drawn. -/
theorem drawAll_succeeds (within : ∀ s ∈ shapes, s.Within c.width c.height) :
    ∃ drawn, c.drawAll shapes = .ok drawn := by
  induction shapes generalizing c with
  | nil => exact ⟨c, rfl⟩
  | cons s rest ih =>
    rcases c.draw_cases s with ⟨_, done⟩ | ⟨off, _⟩
    · have others : ∀ s ∈ rest, s.Within c.width c.height :=
        fun s member => within s (List.mem_cons_of_mem _ member)
      rw [drawAll_cons done]
      exact ih (by simpa only [width_putAll, height_putAll] using others)
    · exact absurd (within s List.mem_cons_self) off

/-- A shape that does not lie on the canvas stops the drawing, and the error
names the position of such a shape. -/
theorem drawAll_refuses (off : ∃ s ∈ shapes, ¬s.Within c.width c.height) :
    ∃ s ∈ shapes, ¬s.Within c.width c.height ∧
      c.drawAll shapes = .error (c.outside s.anchor.1 s.anchor.2) := by
  induction shapes generalizing c with
  | nil =>
    obtain ⟨_, member, _⟩ := off
    cases member
  | cons s rest ih =>
    rcases c.draw_cases s with ⟨on, done⟩ | ⟨off, refused⟩
    · have later : ∃ s ∈ rest, ¬s.Within c.width c.height := by
        obtain ⟨far, member, off⟩ := off
        rcases List.mem_cons.mp member with rfl | member
        · exact absurd on off
        · exact ⟨far, member, off⟩
      obtain ⟨far, member, off, ran⟩ := @ih (c.putAll (s.footprint c.width))
        (by simpa only [width_putAll, height_putAll] using later)
      rw [width_putAll, height_putAll] at off
      refine ⟨far, List.mem_cons_of_mem _ member, off, ?_⟩
      rw [drawAll_cons done, ran, outside_putAll]
    · refine ⟨s, List.mem_cons_self, off, ?_⟩
      rw [drawAll, List.foldlM_cons, refused]
      rfl

end Canvas

end SequenceDiagram
