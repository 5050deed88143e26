import SequenceDiagram.Layout.Room

/-! A row of actors under demands. Granting a demand moves one end of the row
to the right and changes nothing else, so headers that stand side by side stay
so, no distance between two centre lines ever shrinks, and the demand that was
granted is met. -/
namespace SequenceDiagram
open Demand

variable {row before after later : List Actor} {gutter place columns i j : Nat}

/-- All of an actor but the column that its header begins at. -/
def Actor.anywhere (a : Actor) : Actor := { a with slot := { a.slot with left := 0 } }

/-- Each header ends a gutter or more before every later one begins. -/
def SideBySide (gutter : Nat) (row : List Actor) : Prop :=
  row.Pairwise fun a b => a.slot.right + gutter ≤ b.slot.left

/-- The same actors with headers of the same shape, and no two centre lines
closer than before. -/
structure Widens (before after : List Actor) : Prop where
  same : after.map Actor.anywhere = before.map Actor.anywhere
  gaps : ∀ i j, i ≤ j → j < before.length →
    midAt before j + midAt after i ≤ midAt after j + midAt before i

theorem Widens.length_eq (wider : Widens before after) : after.length = before.length := by
  simpa using congrArg List.length wider.same

theorem Widens.refl (row : List Actor) : Widens row row := ⟨rfl, fun _ _ _ _ => Nat.le_refl _⟩

theorem Widens.trans (first : Widens before after) (second : Widens after later) :
    Widens before later := by
  refine ⟨second.same.trans first.same, ?_⟩
  intro i j order inside
  have firstGap := first.gaps i j order inside
  have secondGap := second.gaps i j order (first.length_eq ▸ inside)
  omega

/-- What a row leaves between two centre lines, every wider row leaves too. -/
theorem Widens.keeps_room (wider : Widens before after) (order : i ≤ j) (inside : j < before.length)
    (room : midAt before i + columns ≤ midAt before j) : midAt after i + columns ≤ midAt after j := by
  have gap := wider.gaps i j order inside
  omega

theorem midAt_eq_mid (inside : i < row.length) : midAt row i = row[i].mid := by
  simp [midAt, inside]

theorem mid_lt_of_side_by_side {a b : Actor} (apart : a.slot.right + gutter ≤ b.slot.left) :
    a.mid + (a.slot.width - a.slot.width / 2) + gutter + b.slot.width / 2 ≤ b.mid := by
  simp only [Actor.mid, Slot.mid_eq, Slot.right] at apart ⊢
  omega

/-- The centre lines of headers side by side ascend. -/
theorem midAt_mono (side : SideBySide gutter row) (order : i ≤ j) (inside : j < row.length) :
    midAt row i ≤ midAt row j := by
  rcases Nat.eq_or_lt_of_le order with rfl | before
  · exact Nat.le_refl _
  · have apart := List.pairwise_iff_getElem.mp side i j (by omega) inside before
    rw [midAt_eq_mid inside, midAt_eq_mid (by omega)]
    have bound := mid_lt_of_side_by_side apart
    omega

namespace Demand

@[simp]
theorem shiftFrom_zero (place : Nat) (row : List Actor) : shiftFrom place 0 row = row := by
  have still : (fun a : Actor => a.moveRight 0) = id := rfl
  simp [shiftFrom, still]

@[simp]
theorem length_shiftFrom (place columns : Nat) (row : List Actor) :
    (shiftFrom place columns row).length = row.length := by
  simp [shiftFrom]; omega

theorem getElem_shiftFrom (inside : i < row.length) (still : i < (shiftFrom place columns row).length) :
    (shiftFrom place columns row)[i] = if place ≤ i then row[i].moveRight columns else row[i] := by
  simp only [shiftFrom, List.getElem_append, List.length_take, List.getElem_take, List.getElem_map,
    List.getElem_drop]
  by_cases moved : place ≤ i
  · have there : min place row.length + (i - min place row.length) = i := by omega
    rw [dif_neg (by omega), if_pos moved]
    congr 2
    omega
  · rw [dif_pos (by omega), if_neg moved]

/-- A shift moves the centre lines from its place on and no other. -/
theorem midAt_shiftFrom (inside : i < row.length) :
    midAt (shiftFrom place columns row) i = midAt row i + if place ≤ i then columns else 0 := by
  have still : i < (shiftFrom place columns row).length := by simpa using inside
  rw [midAt_eq_mid still, midAt_eq_mid inside, getElem_shiftFrom inside still]
  split
  · exact Slot.mid_moveRight row[i].slot columns
  · rfl

theorem anywhere_shiftFrom :
    (shiftFrom place columns row).map Actor.anywhere = row.map Actor.anywhere := by
  have kept : Actor.anywhere ∘ (·.moveRight columns) = Actor.anywhere := rfl
  rw [shiftFrom, List.map_append, List.map_map, kept, ← List.map_append, List.take_append_drop]

theorem shiftFrom_widens (place columns : Nat) (row : List Actor) :
    Widens row (shiftFrom place columns row) := by
  refine ⟨anywhere_shiftFrom, ?_⟩
  intro i j order inside
  rw [midAt_shiftFrom inside, midAt_shiftFrom (by omega)]
  split <;> split <;> omega

theorem side_by_side_shiftFrom (side : SideBySide gutter row) :
    SideBySide gutter (shiftFrom place columns row) := by
  rw [← List.take_append_drop place row] at side
  obtain ⟨front, back, across⟩ := List.pairwise_append.mp side
  refine List.pairwise_append.mpr ⟨front, ?_, ?_⟩
  · refine List.pairwise_map.mpr (back.imp ?_)
    intro a b apart
    simp only [Actor.moveRight, Slot.moveRight, Slot.right] at apart ⊢
    omega
  · intro a inFront b moved
    obtain ⟨b, inBack, rfl⟩ := List.mem_map.mp moved
    have apart := across a inFront b inBack
    simp only [Actor.moveRight, Slot.moveRight]
    omega

variable (d : Demand)

/-- Granting a demand does nothing but move one end of the row. -/
theorem grant_eq_shiftFrom (row : List Actor) :
    ∃ columns, d.grant row = shiftFrom d.right columns row := by
  unfold grant
  split
  · exact ⟨0, (shiftFrom_zero d.right row).symm⟩
  · exact ⟨d.shortfall row, rfl⟩

theorem grant_widens (row : List Actor) : Widens row (d.grant row) := by
  obtain ⟨columns, moved⟩ := d.grant_eq_shiftFrom row
  exact moved ▸ shiftFrom_widens d.right columns row

theorem side_by_side_grant (side : SideBySide gutter row) : SideBySide gutter (d.grant row) := by
  obtain ⟨columns, moved⟩ := d.grant_eq_shiftFrom row
  exact moved ▸ side_by_side_shiftFrom side

/-- The early end of the search looks at every actor between the two ends. -/
theorem isMet_iff :
    d.isMet row = true ↔ ∃ i, d.left ≤ i ∧ i ≤ d.right ∧ i < row.length ∧
      midAt row d.left + d.columns < midAt row i := by
  simp only [isMet, reach, List.any_eq_true, decide_eq_true_eq]
  constructor
  · rintro ⟨a, member, met⟩
    obtain ⟨k, short, found⟩ := List.mem_iff_getElem.mp member
    simp only [List.length_take, List.length_drop] at short
    simp only [List.getElem_take, List.getElem_drop] at found
    refine ⟨d.left + k, by omega, by omega, by omega, ?_⟩
    have there : d.left + k < row.length := by omega
    rw [midAt_eq_mid there, found]
    omega
  · rintro ⟨i, low, high, inside, met⟩
    refine ⟨row[i], ?_, by rw [← midAt_eq_mid inside]; omega⟩
    refine List.mem_iff_getElem.mpr ⟨i - d.left, by simp; omega, ?_⟩
    simp only [List.getElem_take, List.getElem_drop, show d.left + (i - d.left) = i by omega]

/-- Among headers side by side the far end is the furthest, so looking at all
actors between the ends sees no more than looking at the far one. -/
theorem isMet_iff_far_end (side : SideBySide gutter row) (order : d.left ≤ d.right)
    (inside : d.right < row.length) :
    d.isMet row = true ↔ midAt row d.left + d.columns < midAt row d.right := by
  rw [isMet_iff]
  constructor
  · rintro ⟨i, _, high, _, met⟩
    exact Nat.lt_of_lt_of_le met (midAt_mono side high inside)
  · intro met
    exact ⟨d.right, order, Nat.le_refl _, inside, met⟩

/-- A demand is met once it has been granted. -/
theorem grant_meets (side : SideBySide gutter row) (order : d.left < d.right)
    (inside : d.right < row.length) :
    midAt (d.grant row) d.left + d.columns ≤ midAt (d.grant row) d.right := by
  unfold grant
  split
  · rename_i met
    have room := (d.isMet_iff_far_end side (Nat.le_of_lt order) inside).mp met
    omega
  · have ascending := midAt_mono side (Nat.le_of_lt order) inside
    rw [midAt_shiftFrom inside, midAt_shiftFrom (by omega : d.left < row.length), if_pos (Nat.le_refl _),
      if_neg (by omega), shortfall]
    omega

end Demand

end SequenceDiagram
