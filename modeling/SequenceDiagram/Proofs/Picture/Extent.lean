import SequenceDiagram.Drawing
import SequenceDiagram.Proofs.Canvas.Drawing
import SequenceDiagram.Proofs.Picture.WholeLabels

/-! The extent of a picture. The canvas is measured by headers and messages alone,
and these always lie on it. Activation boxes are not measured: those of an inner
actor are kept in by the actors further right, those of the last one only by its
own header and by the loops on its lifeline. -/
namespace SequenceDiagram
open Layout

variable {page : Page} {style : Style} {d arranged : Diagram} {outcome : Outcome} {ends : List Ends}
  {e : Ends} {p : PlacedMessage} {placed : List PlacedMessage} {a b : Actor} {row : List Actor} {s : Shape}
  {boxReach headerOffset line later first last mid bottom width height gutter : Nat}

namespace Picture

theorem rowOf_succ :
    rowOf headerOffset style (line + 1) = rowOf headerOffset style line + max style.rowHeight 1 := by
  rw [rowOf, rowOf, Nat.succ_mul, Nat.add_assoc]

/-- Later lines have lower rows, whatever the row height. -/
theorem rowOf_lt (order : line < later) :
    rowOf headerOffset style line < rowOf headerOffset style later := by
  induction order with
  | refl =>
    rw [rowOf_succ]
    omega
  | step _ ih =>
    rw [rowOf_succ]
    omega

theorem rowOf_le (order : line ≤ later) :
    rowOf headerOffset style line ≤ rowOf headerOffset style later := by
  rcases Nat.eq_or_lt_of_le order with rfl | before
  · exact Nat.le_refl _
  · exact Nat.le_of_lt (rowOf_lt before)

/-- The shape lies on the canvas of the diagram. -/
def Holds (d : Diagram) (headerOffset : Nat) (style : Style) (placed : List PlacedMessage) (s : Shape) :
    Prop :=
  s.Within (canvasWidth d style placed) (canvasHeight d headerOffset style)

variable (all : placeAll d headerOffset style = .ok placed)
  (roomy : d.cast.isEmpty = false →
    canvasWidth d style placed * canvasHeight d headerOffset style ≤ Canvas.maxArea)

include all roomy

theorem paint_eq_drawAll (peopled : d.cast.isEmpty = false) :
    ∃ blank : Canvas, blank.width = canvasWidth d style placed ∧
      blank.height = canvasHeight d headerOffset style ∧
      paint style headerOffset d =
        ((blank.drawAll (shapes d headerOffset style placed)).mapError .canvas).map Canvas.picture := by
  obtain ⟨blank, made, width, height⟩ := Canvas.blank_succeeds (roomy peopled)
  refine ⟨blank, width, height, ?_⟩
  rw [canvasWidth, canvasHeight] at made
  simp only [paint, peopled, all, canvas, made, Bool.false_eq_true, if_false]
  rfl

/-- Where all shapes lie on the canvas, there is a picture. -/
theorem paint_succeeds (within : ∀ s ∈ shapes d headerOffset style placed, Holds d headerOffset style placed s) :
    ∃ picture, paint style headerOffset d = .ok picture := by
  cases peopled : d.cast.isEmpty with
  | true => exact ⟨[], if_pos peopled⟩
  | false =>
    obtain ⟨blank, width, height, same⟩ := paint_eq_drawAll all roomy peopled
    simp only [Holds, ← width, ← height] at within
    obtain ⟨drawn, done⟩ := Canvas.drawAll_succeeds within
    exact ⟨drawn.picture, by rw [same, done]; rfl⟩

/-- Where a shape does not, the refusal names such a shape's position. -/
theorem paint_refuses (peopled : d.cast.isEmpty = false)
    (off : ∃ s ∈ shapes d headerOffset style placed, ¬Holds d headerOffset style placed s) :
    ∃ s ∈ shapes d headerOffset style placed, ¬Holds d headerOffset style placed s ∧
      paint style headerOffset d = .error (.canvas (.outOfBounds s.anchor.1 s.anchor.2
        (canvasWidth d style placed) (canvasHeight d headerOffset style))) := by
  obtain ⟨blank, width, height, same⟩ := paint_eq_drawAll all roomy peopled
  simp only [Holds, ← width, ← height] at off ⊢
  obtain ⟨s, member, out, refused⟩ := Canvas.drawAll_refuses off
  exact ⟨s, member, out, by rw [same, refused]; rfl⟩

end Picture

theorem Bar.between_le {left right : Nat} {rightward : Bool} (order : left < right) :
    (between boxReach left right rightward).start ≤ right ∧
      (between boxReach left right rightward).stop ≤ right := by
  rw [between]
  split <;> simp only <;> split <;> omega

namespace Shape

theorem ofActor_within (wide : a.slot.right < width) (under : a.slot.bottom ≤ bottom) (high : bottom < height) :
    ∀ s ∈ ofActor bottom a, s.Within width height := by
  simp only [Slot.right, Slot.bottom] at wide under
  simp only [ofActor, List.forall_mem_cons, Within, anchor, Actor.mid, Slot.mid_eq]
  refine ⟨by omega, by omega, by omega, ?_⟩
  exact List.forall_mem_nil _

/-- Nothing of an activation box is out of place but what lies too far right or
too far down. -/
theorem ofActivation_within_iff (order : first ≤ last) :
    (∀ s ∈ ofActivation boxReach mid first last, s.Within width height) ↔
      mid + boxReach < width ∧ last + 1 < height := by
  rw [ofActivation, List.forall_mem_append, List.forall_mem_singleton]
  dsimp only [Within, anchor]
  constructor
  · rintro ⟨_, wide, high⟩
    omega
  · rintro ⟨wide, high⟩
    refine ⟨?_, by omega, by omega⟩
    split
    · rw [List.forall_mem_singleton]
      dsimp only
      omega
    · exact List.forall_mem_nil _

theorem ofLabel_within {l : Label} (high : line < height) : ∀ s ∈ ofLabel line l, s.Within width height := by
  rw [ofLabel]
  split
  · exact List.forall_mem_nil _
  · rw [List.forall_mem_singleton]
    exact high

theorem ofBar_within (apart : p.source ≠ p.target) (wide : max p.source p.target < width)
    (high : p.row < height) : ∀ s ∈ ofBar boxReach p, s.Within width height := by
  have order : min p.source p.target < max p.source p.target := by omega
  obtain ⟨start, stop⟩ := @Bar.between_le boxReach _ _ p.rightward order
  rw [ofBar, List.forall_mem_append, List.forall_mem_append, List.forall_mem_singleton]
  refine ⟨⟨?_, ?_⟩, ofLabel_within (by omega)⟩
  · cases p.message.arrow.weight with
    | thin =>
      simp only [List.forall_mem_singleton, Within, anchor]
      omega
    | thick =>
      simp only
      split
      · split
        · simp only [List.forall_mem_singleton, Within, anchor]
          omega
        · simp only [List.forall_mem_singleton, Within, anchor]
          omega
      · exact List.forall_mem_nil _
  · simp only [Within, anchor, Bar.headColumn]
    split <;> omega

theorem ofLoop_within
    (wide : (Loop.ofMid boxReach p.source p.next? p.message.label).corner < width) (high : p.row < height) :
    ∀ s ∈ ofLoop boxReach p, s.Within width height := by
  have turns : (Loop.ofMid boxReach p.source p.next? p.message.label).start <
      (Loop.ofMid boxReach p.source p.next? p.message.label).corner := Loop.start_lt_corner
  have above : p.row - 1 < height := by omega
  rw [ofLoop, List.forall_mem_append, List.forall_mem_append, List.forall_mem_singleton]
  refine ⟨⟨?_, ?_⟩, ofLabel_within above⟩
  · cases p.message.arrow.weight with
    | thin =>
      simp only [List.forall_mem_cons]
      dsimp only [Within, anchor]
      refine ⟨by omega, by omega, by omega, by omega, ?_⟩
      exact List.forall_mem_nil _
    | thick =>
      rw [List.forall_mem_append]
      simp only [List.forall_mem_cons, Within, anchor]
      refine ⟨?_, by omega, by omega, ?_⟩
      · split
        · simp only [List.forall_mem_cons]
          refine ⟨by omega, by omega, ?_⟩
          exact List.forall_mem_nil _
        · exact List.forall_mem_nil _
      · exact List.forall_mem_nil _
  · simp only [Within, anchor]
    split <;> omega

/-- A message lies on every canvas as wide as the message is measured. -/
theorem ofMessage_within (apart : p.message.isSelf = false → p.source ≠ p.target)
    (wide : p.stop boxReach ≤ width) (high : p.row < height) :
    ∀ s ∈ ofMessage boxReach p, s.Within width height := by
  rw [PlacedMessage.stop] at wide
  rw [ofMessage]
  split
  · rename_i self
    rw [if_pos self] at wide
    dsimp only at wide
    exact ofLoop_within (by omega) high
  · rename_i other
    rw [if_neg other] at wide
    dsimp only at wide
    exact ofBar_within (apart (by simpa using other)) (by omega) high

end Shape

namespace Layout.Arranged

variable (result : Arranged style.measure page d ends arranged outcome)
include result

theorem intervals_within (complete : d.Complete) (member : a ∈ arranged.cast.actors)
    (interval : (first, last) ∈ a.lifespan.intervals) : first ≤ last ∧ last ≤ arranged.lineCount := by
  obtain ⟨b, held, _, lived⟩ := result.actor_origin member
  rw [← lived] at interval
  rw [result.lineCount]
  exact (complete.intervals_within held interval).2

/-- Activation boxes never reach too far down, so the canvas holds those of an
actor where they do not reach past its right edge. -/
theorem activations_within_iff (complete : d.Complete) (member : a ∈ arranged.cast.actors) :
    (∀ s ∈ Picture.activations outcome.headerOffset style a,
      s.Within width (Picture.canvasHeight arranged outcome.headerOffset style)) ↔
      a.mid + style.boxReach < width := by
  have each : ∀ first last, (first, last) ∈ a.lifespan.intervals →
      ((∀ s ∈ Shape.ofActivation style.boxReach a.mid (Picture.rowOf outcome.headerOffset style first)
          (Picture.rowOf outcome.headerOffset style last),
        s.Within width (Picture.canvasHeight arranged outcome.headerOffset style)) ↔
        a.mid + style.boxReach < width) := by
    intro first last interval
    obtain ⟨order, inside⟩ := result.intervals_within complete member interval
    rw [Shape.ofActivation_within_iff (Picture.rowOf_le order)]
    exact and_iff_left (Nat.succ_lt_succ (Picture.rowOf_lt (Nat.lt_succ_of_le inside)))
  rw [Picture.activations, List.forall_mem_flatMap]
  constructor
  · intro within
    obtain ⟨b, held, _, lived⟩ := result.actor_origin member
    obtain ⟨⟨first, last⟩, interval⟩ := List.exists_mem_of_ne_nil _ (complete.intervals_nonempty held)
    rw [lived] at interval
    exact (each first last interval).mp (within _ interval)
  · rintro wide ⟨first, last⟩ interval
    exact (each first last interval).mpr wide

/-- Whatever the style, the canvas holds all headers and lifelines. -/
theorem headers_within (member : a ∈ arranged.cast.actors) :
    ∀ s ∈ Shape.ofActor (Picture.rowOf outcome.headerOffset style (arranged.lineCount + 1)) a,
      Picture.Holds arranged outcome.headerOffset style placed s := by
  have right : a.slot.right ≤ Picture.stop arranged.cast style placed := Picture.right_le_stop member
  have bottom := result.bottom_le_headerOffset member
  refine Shape.ofActor_within ?_ ?_ (Nat.lt_succ_self _)
  · rw [Picture.canvasWidth, Picture.rightMargin]
    omega
  · exact Nat.le_trans bottom (Nat.le_add_right _ _)

/-- Whatever the style, the canvas holds all bars and loops with their heads and
labels. -/
theorem messages_within (complete : d.Complete)
    (all : Picture.placeAll arranged outcome.headerOffset style = .ok placed) (member : p ∈ placed) :
    ∀ s ∈ Shape.ofMessage style.boxReach p,
      Picture.Holds arranged outcome.headerOffset style placed s := by
  obtain ⟨e, settled⟩ := result.settled complete all member
  obtain ⟨line, _, inside, same⟩ := settled.row
  apply Shape.ofMessage_within
  · intro other
    have room := settled.bar_room result.side_by_side other
    omega
  · exact Nat.le_trans (Picture.stop_le_stop member) (Nat.le_add_right _ _)
  · rw [same]
    exact Nat.lt_succ_of_lt (Picture.rowOf_lt (Nat.lt_succ_of_le inside))

/-- What is not on the canvas is part of an activation box. -/
theorem holds_or_box (complete : d.Complete)
    (all : Picture.placeAll arranged outcome.headerOffset style = .ok placed)
    (member : s ∈ Picture.shapes arranged outcome.headerOffset style placed) :
    Picture.Holds arranged outcome.headerOffset style placed s ∨
      ∃ a ∈ arranged.cast.actors, s ∈ Picture.activations outcome.headerOffset style a := by
  rcases List.mem_append.mp member with member | member
  · rcases List.mem_append.mp member with member | member
    · obtain ⟨a, held, drawn⟩ := List.mem_flatMap.mp member
      exact .inl (result.headers_within held s drawn)
    · exact .inr (List.mem_flatMap.mp member)
  · obtain ⟨p, isPlaced, drawn⟩ := List.mem_flatMap.mp member
    exact .inl (result.messages_within complete all isPlaced s drawn)

/-- The canvas holds everything exactly when no box reaches past its right edge. -/
theorem holds_all_iff (complete : d.Complete)
    (all : Picture.placeAll arranged outcome.headerOffset style = .ok placed) :
    (∀ s ∈ Picture.shapes arranged outcome.headerOffset style placed,
      Picture.Holds arranged outcome.headerOffset style placed s) ↔
      ∀ a ∈ arranged.cast.actors, a.mid + style.boxReach < Picture.canvasWidth arranged style placed := by
  constructor
  · intro holds a member
    refine (result.activations_within_iff complete member).mp fun s drawn => holds s ?_
    exact List.mem_append_left _ (List.mem_append_right _ (List.mem_flatMap.mpr ⟨a, member, drawn⟩))
  · intro wide s member
    rcases result.holds_or_box complete all member with on | ⟨a, held, box⟩
    · exact on
    · exact (result.activations_within_iff complete held).mpr (wide a held) s box

end Layout.Arranged

end SequenceDiagram
