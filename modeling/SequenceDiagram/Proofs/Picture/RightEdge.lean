import Mathlib.Data.List.Nodup
import SequenceDiagram.Proofs.Picture.Extent

/-! The right edge of the canvas. Of all activation boxes those of the last actor
reach furthest. Its header gives them half of its own width and the margin; a loop
on its lifeline gives them all they need, since it is measured from their edge.
So a diagram with a parse is drawn exactly when one of the two suffices. -/
namespace SequenceDiagram
open Layout

variable {page : Page} {style : Style} {text : Text} {d arranged : Diagram} {outcome : Outcome}
  {ends : List Ends} {cast : Cast} {e : Ends} {p : PlacedMessage} {placed : List PlacedMessage}
  {a last : Actor} {row : List Actor} {gutter headerOffset pageWidth : Nat}

/-- Boxes that stay within the smallest header and the margin always fit. -/
theorem Diagram.boxes_fit_of_short (short : style.boxReach ≤ 3) : d.BoxesFit style := by
  intro name _
  exact .inl (Nat.le_trans short (Nat.le_add_left 3 _))

theorem Actor.right_eq (a : Actor) : a.slot.right = a.mid + (a.slot.width - a.slot.width / 2) := by
  rw [Slot.right, Actor.mid, Slot.mid_eq]
  omega

theorem le_last (side : SideBySide gutter row) (final : row.getLast? = some last) (member : a ∈ row) :
    a.mid ≤ last.mid ∧ a.slot.right ≤ last.slot.right := by
  obtain ⟨before, rfl⟩ := List.getLast?_eq_some_iff.mp final
  rcases List.mem_append.mp member with earlier | same
  · have apart := (List.pairwise_append.mp side).2.2 a earlier last (List.mem_singleton_self last)
    have order := mid_lt_of_side_by_side apart
    rw [Slot.right] at apart ⊢
    rw [Slot.right]
    omega
  · rw [List.mem_singleton.mp same]
    exact ⟨Nat.le_refl _, Nat.le_refl _⟩

/-- Actors with the same name are the same actor. -/
theorem actor_of_name {b : Actor} (distinct : cast.names.Nodup) (member : a ∈ cast.actors)
    (also : b ∈ cast.actors) (named : a.name = b.name) : a = b :=
  List.inj_on_of_nodup_map distinct member also named

/-- The lifeline of the source is that of the actor of its name. -/
theorem PlacedMessage.OnLifelines.source_eq_mid (on : p.OnLifelines cast e) (distinct : cast.names.Nodup)
    (member : a ∈ cast.actors) (named : p.message.source = a.name) : p.source = a.mid := by
  obtain ⟨inside, same⟩ := indexOf_spec on.joins.source
  have actor := actor_of_name distinct (List.getElem_mem inside) member (same.trans named)
  rw [on.source, midAt_eq_mid inside, actor]

/-- Only the last actor has nobody to its right. -/
theorem PlacedMessage.OnLifelines.source_eq_last (on : p.OnLifelines cast e)
    (final : cast.actors.getLast? = some last) (alone : p.next? = none) : p.message.source = last.name := by
  obtain ⟨inside, named⟩ := indexOf_spec on.joins.source
  rw [on.next, Option.map_eq_none_iff, List.getElem?_eq_none_iff] at alone
  have place : e.source = cast.actors.length - 1 := by omega
  rw [List.getLast?_eq_getElem?, ← place, List.getElem?_eq_getElem inside, Option.some.injEq] at final
  rw [← final, named]

namespace PlacedMessage.Settled

variable (settled : p.Settled style.measure style headerOffset d e)
include settled

/-- A bar is measured up to its right lifeline. -/
theorem bar_stop (side : SideBySide page.gutter d.cast.actors) (other : p.message.isSelf = false) :
    p.stop style.boxReach = max p.source p.target + 1 := by
  have room := settled.bar_room side other
  simp only [stop, other, Bool.false_eq_true, if_false, settled.bar_label_eq side other, Label.stop]
  omega

/-- A loop is measured from the edge of the boxes on its lifeline. -/
theorem loop_stop (self : p.message.isSelf = true) :
    p.stop style.boxReach = p.source + style.boxReach + 5 + p.message.label.length := by
  simp only [stop, self, if_true, settled.loop_eq self, Label.stop]
  omega

/-- No bar reaches past the last lifeline. -/
theorem bar_stop_le (side : SideBySide page.gutter d.cast.actors) (other : p.message.isSelf = false)
    (final : d.cast.actors.getLast? = some last) : p.stop style.boxReach ≤ last.mid + 1 := by
  have bounded {place : Nat} (inside : place < d.cast.actors.length) :
      midAt d.cast.actors place ≤ last.mid := by
    rw [midAt_eq_mid inside]
    exact (le_last side final (List.getElem_mem inside)).1
  have source := bounded settled.joins.source_inside
  have target := bounded settled.joins.target_inside
  rw [← settled.source] at source
  rw [← settled.target] at target
  rw [settled.bar_stop side other]
  omega

/-- An actor further right keeps a loop in. -/
theorem loop_stop_le (side : SideBySide page.gutter d.cast.actors) (self : p.message.isSelf = true)
    (final : d.cast.actors.getLast? = some last) {next : Nat} (follows : p.next? = some next) :
    p.stop style.boxReach ≤ last.mid := by
  have room := settled.loop_room self follows
  rw [settled.next] at follows
  obtain ⟨a, held, rfl⟩ := Option.map_eq_some_iff.mp follows
  have order := (le_last side final (List.mem_of_getElem? held)).1
  rw [settled.loop_stop self]
  omega

end PlacedMessage.Settled

namespace Layout.Arranged

variable (result : Arranged style.measure (.terminal pageWidth) d ends arranged outcome)
  (complete : d.Complete) (all : Picture.placeAll arranged outcome.headerOffset style = .ok placed)

include result

theorem width_of_terminal (member : a ∈ arranged.cast.actors) : a.slot.width = a.name.length + 4 :=
  (result.has_header member).width

include complete

theorem distinct : arranged.cast.names.Nodup := result.names_eq ▸ complete.distinct

include all

/-- A loop on the last lifeline makes the canvas wide enough for the boxes there. -/
theorem box_fits_of_loop (member : last ∈ arranged.cast.actors) {m : Message} (sent : m ∈ d.messages)
    (loops : m.source = last.name ∧ m.target = last.name) :
    last.mid + style.boxReach < Picture.canvasWidth arranged style placed := by
  rw [← result.undirected_placed all] at sent
  obtain ⟨p, isPlaced, rfl⟩ := List.mem_map.mp sent
  obtain ⟨e, settled⟩ := result.settled complete all isPlaced
  have self : p.message.isSelf = true := beq_iff_eq.mpr (loops.1.trans loops.2.symm)
  have start := settled.source_eq_mid (result.distinct complete) member loops.1
  have measured : p.stop style.boxReach ≤ Picture.stop arranged.cast style placed :=
    Picture.stop_le_stop isPlaced
  rw [settled.loop_stop self, start] at measured
  rw [Picture.canvasWidth]
  omega

/-- Without such a loop the canvas ends at the margin right of the last header. -/
theorem stop_le_of_no_loop (final : arranged.cast.actors.getLast? = some last)
    (noLoop : ¬∃ m ∈ d.messages, m.source = last.name ∧ m.target = last.name) :
    Picture.stop arranged.cast style placed ≤ last.slot.right := by
  have member := List.mem_of_getLast? final
  have wide := result.width_of_terminal member
  have right := last.right_eq
  refine Picture.stop_le_iff.mpr ⟨fun a held => (le_last result.side_by_side final held).2, ?_⟩
  intro p isPlaced
  obtain ⟨e, settled⟩ := result.settled complete all isPlaced
  cases self : p.message.isSelf with
  | false =>
    have kept := settled.bar_stop_le result.side_by_side self final
    omega
  | true =>
    cases follows : p.next? with
    | some next =>
      have kept := settled.loop_stop_le result.side_by_side self final follows
      omega
    | none =>
      have source := settled.source_eq_last final follows
      have sent : { p.message with rightward := none } ∈ d.messages := by
        rw [← result.undirected_placed all]
        exact List.mem_map_of_mem isPlaced
      exact absurd ⟨_, sent, source, (beq_iff_eq.mp self).symm.trans source⟩ noLoop

/-- All activation boxes lie on the canvas exactly when those of the last actor
have their room. -/
theorem boxes_fit_iff :
    (∀ a ∈ arranged.cast.actors, a.mid + style.boxReach < Picture.canvasWidth arranged style placed) ↔
      d.BoxesFit style := by
  rw [Diagram.BoxesFit, ← result.names_eq, Cast.names, List.getLast?_map]
  cases final : arranged.cast.actors.getLast? with
  | none =>
    have nobody := List.getLast?_eq_none_iff.mp final
    simp [nobody]
  | some last =>
    have member := List.mem_of_getLast? final
    have wide := result.width_of_terminal member
    have right := last.right_eq
    simp only [Option.map_some, Option.mem_def, Option.some.injEq, forall_eq']
    constructor
    · intro fit
      by_cases loop : ∃ m ∈ d.messages, m.source = last.name ∧ m.target = last.name
      · exact .inr loop
      · have measured := result.stop_le_of_no_loop complete all final loop
        have room := fit last member
        rw [Picture.canvasWidth, Picture.rightMargin] at room
        exact .inl (by omega)
    · intro fit
      have room : last.mid + style.boxReach < Picture.canvasWidth arranged style placed := by
        rcases fit with short | ⟨m, sent, loops⟩
        · have measured : last.slot.right ≤ Picture.stop arranged.cast style placed :=
            Picture.right_le_stop member
          rw [Picture.canvasWidth, Picture.rightMargin]
          omega
        · exact result.box_fits_of_loop complete all member sent loops
      intro a held
      have order := (le_last result.side_by_side final held).1
      omega

end Layout.Arranged

namespace Drawing

variable {measure : Measure} (parsed : Diagram.parse text = .ok d)
  (done : arrange measure page d = .ok (arranged, outcome))

include parsed done

/-- Of a text that is read and arranged the painter alone decides. -/
theorem ofText_eq : Drawing.ofText measure page style text =
    ((Picture.paint style outcome.headerOffset arranged).mapError .paint).map
      fun picture => { text := picture, warnings := outcome.warnings } := by
  have arranges : (arrange measure page d).mapError DrawingError.layout = .ok (arranged, outcome) := by
    rw [done]
    rfl
  simp only [Drawing.ofText, Diagram.ofText, parsed, arranges]
  cases Picture.paint style outcome.headerOffset arranged with
  | error e => rfl
  | ok picture => rfl

theorem canvas_le_of_area_le (all : Picture.placeAll arranged outcome.headerOffset style = .ok placed)
    (roomy : Drawing.area measure page style text ≤ Canvas.maxArea) (peopled : arranged.cast.isEmpty = false) :
    Picture.canvasWidth arranged style placed * Picture.canvasHeight arranged outcome.headerOffset style ≤
      Canvas.maxArea := by
  rw [Drawing.area, Diagram.ofText, parsed] at roomy
  simpa only [done, Except.mapError, all, peopled, Bool.false_eq_true, if_false] using roomy

end Drawing

namespace Layout.Arranged

variable (result : Arranged style.measure (.terminal pageWidth) d ends arranged outcome)
  (complete : d.Complete) (all : Picture.placeAll arranged outcome.headerOffset style = .ok placed)

include result complete all

theorem holds_all_iff_boxes_fit :
    (∀ s ∈ Picture.shapes arranged outcome.headerOffset style placed,
      Picture.Holds arranged outcome.headerOffset style placed s) ↔ d.BoxesFit style :=
  (result.holds_all_iff complete all).trans (result.boxes_fit_iff complete all)

/-- Where the boxes do not fit, painting is refused with the position of one. -/
theorem paint_refuses_box (boxes : ¬d.BoxesFit style)
    (roomy : arranged.cast.isEmpty = false → Picture.canvasWidth arranged style placed *
      Picture.canvasHeight arranged outcome.headerOffset style ≤ Canvas.maxArea) :
    ∃ a ∈ arranged.cast.actors, ∃ s ∈ Picture.activations outcome.headerOffset style a,
      Picture.paint style outcome.headerOffset arranged = .error (.canvas (.outOfBounds s.anchor.1 s.anchor.2
        (Picture.canvasWidth arranged style placed)
        (Picture.canvasHeight arranged outcome.headerOffset style))) := by
  have off := mt (result.holds_all_iff_boxes_fit complete all).mp boxes
  simp only [not_forall, exists_prop] at off
  have peopled : arranged.cast.isEmpty = false := by
    cases nobody : arranged.cast.actors with
    | nil =>
      refine absurd ?_ boxes
      rw [Diagram.BoxesFit, ← result.names_eq, Cast.names, nobody]
      simp
    | cons a rest => rw [Cast.isEmpty, nobody, List.isEmpty_cons]
  obtain ⟨s, member, out, painted⟩ := Picture.paint_refuses all roomy peopled off
  rcases result.holds_or_box complete all member with on | ⟨a, held, box⟩
  · exact absurd on out
  · exact ⟨a, held, s, box, painted⟩

end Layout.Arranged

/-- A text that is read is drawn in a style of its own measure exactly when the
boxes of the last actor have their room. All headers, lifelines, bars, loops and
labels lie on the canvas in any case, and where the boxes have their room every
character does. Where they do not, the drawing is refused with the position of a
box. -/
theorem drawn_iff_boxes_fit (pageWidth : Nat) (style : Style) (text : Text) (d : Diagram)
    (parsed : Diagram.parse text = .ok d)
    (roomy : Drawing.area style.measure (.terminal pageWidth) style text ≤ Canvas.maxArea) :
    ((∃ drawing, Drawing.ofText style.measure (.terminal pageWidth) style text = .ok drawing) ↔
      d.BoxesFit style) ∧
    ∃ arranged outcome placed, arrange style.measure (.terminal pageWidth) d = .ok (arranged, outcome) ∧
      Picture.placeAll arranged outcome.headerOffset style = .ok placed ∧
      (∀ s ∈ Picture.shapes arranged outcome.headerOffset style placed,
        Picture.Holds arranged outcome.headerOffset style placed s ∨
        ∃ a ∈ arranged.cast.actors, s ∈ Picture.activations outcome.headerOffset style a) ∧
      (d.BoxesFit style → ∀ s ∈ Picture.shapes arranged outcome.headerOffset style placed,
        ∀ spot ∈ s.footprint (Picture.canvasWidth arranged style placed),
          spot.x < Picture.canvasWidth arranged style placed ∧
            spot.y < Picture.canvasHeight arranged outcome.headerOffset style) ∧
      (¬d.BoxesFit style → ∃ a ∈ arranged.cast.actors,
        ∃ s ∈ Picture.activations outcome.headerOffset style a,
          Drawing.ofText style.measure (.terminal pageWidth) style text =
            .error (.paint (.canvas (.outOfBounds s.anchor.1 s.anchor.2
              (Picture.canvasWidth arranged style placed)
              (Picture.canvasHeight arranged outcome.headerOffset style))))) := by
  obtain ⟨complete, ends, arranged, outcome, placed, done, result, all⟩ :=
    stages_of_parse style.measure (.terminal pageWidth) style parsed
  have room := Drawing.canvas_le_of_area_le parsed done all roomy
  have fit := result.holds_all_iff_boxes_fit complete all
  refine ⟨⟨?_, ?_⟩, arranged, outcome, placed, done, all, fun s => result.holds_or_box complete all, ?_, ?_⟩
  · rintro ⟨drawing, drawn⟩
    by_contra boxes
    obtain ⟨_, _, _, _, refused⟩ := result.paint_refuses_box complete all boxes room
    rw [Drawing.ofText_eq parsed done, refused] at drawn
    cases drawn
  · intro boxes
    obtain ⟨picture, painted⟩ := Picture.paint_succeeds all room (fit.mpr boxes)
    refine ⟨{ text := picture, warnings := outcome.warnings }, ?_⟩
    rw [Drawing.ofText_eq parsed done, painted]
    rfl
  · intro boxes s member spot written
    exact Shape.footprint_within (fit.mpr boxes s member) written
  · intro boxes
    obtain ⟨a, held, s, box, refused⟩ := result.paint_refuses_box complete all boxes room
    refine ⟨a, held, s, box, ?_⟩
    rw [Drawing.ofText_eq parsed done, refused]
    rfl

/-- Two actors with short names and a short label between them. -/
def shortPair : Text := "A -> B: x".toList

/-- Boxes five columns to each side find no room on the canvas of a short pair. -/
theorem wide_boxes_refused :
    Drawing.ofText (Style.measure { boxReach := 5 }) (.terminal 120) { boxReach := 5 } shortPair =
      .error (.paint (.canvas (.outOfBounds 23 7 23 10))) := by
  decide +kernel

theorem drawn_iff_boxes_fit_wide_boxes : ∃ d, Diagram.parse shortPair = .ok d ∧
    Drawing.area (Style.measure { boxReach := 5 }) (.terminal 120) { boxReach := 5 } shortPair ≤
      Canvas.maxArea ∧
    ((∃ drawing, Drawing.ofText (Style.measure { boxReach := 5 }) (.terminal 120) { boxReach := 5 } shortPair =
      .ok drawing) ↔ d.BoxesFit { boxReach := 5 }) ∧ ¬d.BoxesFit { boxReach := 5 } := by
  have read : ∃ d, Diagram.parse shortPair = .ok d := ⟨_, rfl⟩
  obtain ⟨d, parsed⟩ := read
  have roomy : Drawing.area (Style.measure { boxReach := 5 }) (.terminal 120) { boxReach := 5 } shortPair ≤
      Canvas.maxArea := by
    decide +kernel
  have exact_condition := (drawn_iff_boxes_fit 120 { boxReach := 5 } shortPair d parsed roomy).1
  refine ⟨d, parsed, roomy, exact_condition, ?_⟩
  rw [← exact_condition, wide_boxes_refused]
  rintro ⟨drawing, drawn⟩
  cases drawn

end SequenceDiagram
