import SequenceDiagram.Proofs.Layout.Headers
import SequenceDiagram.Proofs.Picture.Counted
import SequenceDiagram.Proofs.Picture.Placement

/-! Labels in the picture. A measure asks for the columns that the painter then
takes: in an arrangement by the style's own measure the label of a bar lies
between the two half boxes with a blank on either side, a loop turns back at its
full reach, and its label ends a blank short of the next box. So no label is cut,
neither to its room nor at the edge of the canvas. -/
namespace SequenceDiagram
open Layout

variable {measure : Measure} {page : Page} {style : Style} {d : Diagram} {cast : Cast} {e : Ends}
  {p : PlacedMessage} {placed : List PlacedMessage} {a : Actor} {boxReach headerOffset width bound : Nat}

namespace Picture

/-- What decides the width of the canvas: the headers and the messages. -/
theorem stop_le_iff : stop cast style placed ≤ bound ↔
    (∀ a ∈ cast.actors, a.slot.right ≤ bound) ∧ ∀ p ∈ placed, p.stop style.boxReach ≤ bound := by
  simp only [stop, foldl_max_le_iff, Nat.zero_le, true_and, List.mem_append, or_imp, forall_and,
    List.forall_mem_map]

theorem right_le_stop (member : a ∈ cast.actors) : a.slot.right ≤ stop cast style placed :=
  (stop_le_iff.mp (Nat.le_refl _)).1 a member

theorem stop_le_stop (member : p ∈ placed) : p.stop style.boxReach ≤ stop cast style placed :=
  (stop_le_iff.mp (Nat.le_refl _)).2 p member

end Picture

namespace PlacedMessage

/-- The label of the message's bar or loop. -/
def label (boxReach : Nat) (p : PlacedMessage) : Label :=
  if p.message.isSelf then (Loop.ofMid boxReach p.source p.next? p.message.label).label
  else .ofBar boxReach (min p.source p.target) (max p.source p.target) p.message.label

theorem label_stop_le_stop (boxReach : Nat) (p : PlacedMessage) :
    (p.label boxReach).stop ≤ p.stop boxReach := by
  rw [label, stop]
  split
  · exact Nat.le_max_right _ _
  · exact Nat.le_max_right _ _

/-- The label is the last thing drawn for a message. -/
theorem mem_ofMessage_of_label (visible : (p.label boxReach).text ≠ []) :
    .text (p.label boxReach).column (p.row - 1) (p.label boxReach).text ∈ Shape.ofMessage boxReach p := by
  have shown : (p.label boxReach).isEmpty = false := by simpa [Label.isEmpty] using visible
  rw [Shape.ofMessage]
  by_cases self : p.message.isSelf
  · rw [label, if_pos self] at shown ⊢
    rw [if_pos self]
    simp [Shape.ofLoop, Shape.ofLabel, shown]
  · rw [label, if_neg self] at shown ⊢
    rw [if_neg self]
    simp [Shape.ofBar, Shape.ofLabel, shown]

/-- The label of a message as it is counted out is the one that was written. For a
message to oneself the loop is drawn at its full reach, and where there is a next actor,
a blank parts its corner and its label from the edge of that actor's boxes. On a canvas
of this width no character of the label is missing. -/
structure LabelWhole (n : Counting) (p : PlacedMessage) (boxReach width : Nat) (l : Label) : Prop where
  bar : p.message.isSelf = false →
    Label.ofBar? n boxReach (min p.source p.target) (max p.source p.target) p.message.label = some l
  loop : p.message.isSelf = true → ∃ loop,
    Loop.ofMid? n boxReach p.source p.next? p.message.label = some loop ∧ loop.label = l ∧
      loop.corner = p.source + boxReach + 3 ∧
      ∀ next, p.next? = some next → loop.corner + 1 < next - boxReach ∧ l.stop < next - boxReach
  whole : l.text = p.message.label
  inside : l.stop ≤ width
  written : ((Shape.text l.column (p.row - 1) l.text).footprint width).map Spot.char = p.message.label

namespace Settled

variable (settled : p.Settled style.measure style headerOffset d e)
include settled

theorem order (side : SideBySide page.gutter d.cast.actors) :
    min p.source p.target = midAt d.cast.actors (min e.source e.target) ∧
      max p.source p.target = midAt d.cast.actors (max e.source e.target) := by
  have sourceInside : e.source < d.cast.actors.length := settled.joins.source_inside
  have targetInside : e.target < d.cast.actors.length := settled.joins.target_inside
  rw [settled.source, settled.target]
  rcases Nat.le_total e.source e.target with order | order
  · have ascending := midAt_mono side order targetInside
    simp only [Nat.min_eq_left, Nat.max_eq_right, order, ascending, and_self]
  · have ascending := midAt_mono side order sourceInside
    simp only [Nat.min_eq_right, Nat.max_eq_left, order, ascending, and_self]

/-- Between the lifelines of a bar there are two half boxes, two blanks and the
label. -/
theorem bar_room (side : SideBySide page.gutter d.cast.actors) (other : p.message.isSelf = false) :
    min p.source p.target + p.message.label.length + 2 * style.boxReach + 3 ≤ max p.source p.target := by
  have apart : e.source ≠ e.target := by simpa [settled.joins.same_place_iff] using other
  have room := settled.room.between apart
  obtain ⟨left, right⟩ := settled.order side
  simp only [Style.measure, Measure.terminal, Measure.labelPad] at room
  omega

/-- Right of a loop's lifeline there are, up to the next one, two half boxes, two
blanks, the bars of the loop and its label. -/
theorem loop_room (self : p.message.isSelf = true) {next : Nat} (follows : p.next? = some next) :
    p.source + p.message.label.length + 2 * style.boxReach + 6 ≤ next := by
  have same : e.source = e.target := settled.joins.same_place_iff.mpr self
  rw [settled.next] at follows
  obtain ⟨a, held, rfl⟩ := Option.map_eq_some_iff.mp follows
  obtain ⟨inside, rfl⟩ := List.getElem?_eq_some_iff.mp held
  have room := settled.room.beside same inside
  rw [midAt_eq_mid inside, ← settled.source] at room
  simp only [Style.measure, Measure.terminal, Measure.labelPad, Measure.loopReach] at room
  omega

/-- The label of a bar is whole, and centred between the half boxes. -/
theorem bar_label_eq (side : SideBySide page.gutter d.cast.actors) (other : p.message.isSelf = false) :
    Label.ofBar style.boxReach (min p.source p.target) (max p.source p.target) p.message.label =
      { column := min p.source p.target + style.boxReach + 2 +
          (max p.source p.target - (min p.source p.target + p.message.label.length + 2 * style.boxReach + 3)) / 2,
        text := p.message.label } := by
  have room := settled.bar_room side other
  simp only [Label.ofBar, Measure.labelPad]
  rw [Text.fit_of_length_le (by omega), Label.mk.injEq]
  exact ⟨by omega, rfl⟩

/-- A loop is drawn at its full reach, and its label is whole. -/
theorem loop_eq (self : p.message.isSelf = true) :
    Loop.ofMid style.boxReach p.source p.next? p.message.label =
      { start := p.source + style.boxReach,
        corner := p.source + style.boxReach + 3,
        label := { column := p.source + style.boxReach + 5, text := p.message.label } } := by
  cases follows : p.next? with
  | none =>
    simp only [Loop.ofMid, Measure.loopReach, Measure.labelPad]
    rw [Text.fit_of_length_le (Nat.le_refl _)]
  | some next =>
    have room := settled.loop_room self follows
    have full : max (min (p.source + style.boxReach + 3) (next - (style.boxReach + 1)))
        (p.source + style.boxReach + 1) = p.source + style.boxReach + 3 := by omega
    simp only [Loop.ofMid, Measure.loopReach, Measure.labelPad, full]
    rw [Text.fit_of_length_le (by omega)]

theorem label_text (side : SideBySide page.gutter d.cast.actors) :
    (p.label style.boxReach).text = p.message.label := by
  rw [label]
  split
  · rename_i self
    rw [settled.loop_eq self]
  · rename_i other
    rw [settled.bar_label_eq side (by simpa using other)]

/-- Where the columns of the message can be counted, its label is drawn whole on a
canvas that holds them. -/
theorem label_whole {n : Counting} {stop : Nat} (side : SideBySide page.gutter d.cast.actors)
    (counted : p.stop? n style.boxReach = some stop) (held : p.stop style.boxReach ≤ width) :
    p.LabelWhole n style.boxReach width (p.label style.boxReach) := by
  have whole := settled.label_text side
  have inside := Nat.le_trans (p.label_stop_le_stop style.boxReach) held
  refine ⟨?_, ?_, whole, inside, ?_⟩
  · intro other
    rw [label_of_stop? counted other, label, if_neg (by simp [other])]
  · intro self
    have same : p.label style.boxReach = (Loop.ofMid style.boxReach p.source p.next? p.message.label).label := by
      rw [label, if_pos self]
    refine ⟨_, loop_of_stop? counted self, same.symm, ?_, ?_⟩
    · rw [settled.loop_eq self]
    · intro next follows
      have room := settled.loop_room self follows
      rw [same, settled.loop_eq self]
      simp only [Label.stop]
      omega
  · rw [Label.stop, whole] at inside
    rw [whole, Shape.footprint, List.take_of_length_le (by omega), List.map_map]
    exact List.zipIdx_map_fst 0 p.message.label

end Settled

end PlacedMessage

/-- No label of a text is ever cut. Every text that can be read is arranged and placed,
if its layout and its canvas can be counted out, and each of its labels is then drawn,
whole, within the canvas. -/
theorem labels_drawn_whole (n : Counting) (page : Page) (style : Style) (text : Text) (d : Diagram)
    (parsed : Diagram.parse text = .ok d) (layout : Except LayoutError (Diagram × Outcome))
    (arranges : Layout.arrange? n style.measure page d = some layout) :
    ∃ arranged outcome, layout = .ok (arranged, outcome) ∧
      ∀ measured, Picture.sheet? n style outcome.headerOffset arranged = some measured →
        ∃ sheet, measured = .ok sheet ∧
          sheet.placed.map (fun p => { p.message with rightward := none }) = d.messages ∧
          ∀ p ∈ sheet.placed, (∃ e, p.OnLifelines arranged.cast e) ∧
            ∃ l, p.LabelWhole n style.boxReach sheet.width l ∧
              ∀ shapes, Shape.ofMessage? n style.boxReach p = some shapes → p.message.label ≠ [] →
                .text l.column (p.row - 1) l.text ∈ shapes := by
  obtain ⟨complete, ends, arranged, outcome, placed, done, result, all⟩ :=
    stages_of_parse style.measure page style parsed
  refine ⟨arranged, outcome, (arrange?_yields layout arranges).trans done, fun measured counted => ?_⟩
  have sheet := Picture.sheet?_yields measured counted
  rw [all] at sheet
  subst sheet
  refine ⟨_, rfl, result.undirected_placed all, fun p member => ?_⟩
  obtain ⟨e, settled⟩ := result.settled complete all member
  obtain ⟨stop, stopped⟩ := Picture.stops_of_sheet? counted p member
  have held : p.stop style.boxReach ≤ Picture.canvasWidth arranged style placed :=
    Nat.le_trans (Picture.stop_le_stop member) (Nat.le_add_right _ _)
  refine ⟨⟨e, settled.toOnLifelines⟩, p.label style.boxReach,
    settled.label_whole result.side_by_side stopped held, fun shapes drawn visible => ?_⟩
  rw [Shape.ofMessage?_yields shapes drawn]
  exact PlacedMessage.mem_ofMessage_of_label (settled.label_text result.side_by_side ▸ visible)

/-- A bar, a loop beside the next actor, and a loop of the last actor. -/
def barAndLoops : Text := "A -> B: hello\nA -> A: again\nB => B: done".toList

theorem labels_drawn_whole_bar_and_loops :
    ∃ d, Diagram.parse barAndLoops = .ok d ∧ ∃ arranged outcome sheet,
      Layout.arrange? .words (.terminal 4) (.terminal 80) d = some (.ok (arranged, outcome)) ∧
      Picture.sheet? .words { boxReach := 4 } outcome.headerOffset arranged = some (.ok sheet) ∧
      ∀ p ∈ sheet.placed, ∃ l, p.LabelWhole .words 4 sheet.width l := by
  have ran : ∃ d arranged outcome sheet, Diagram.parse barAndLoops = .ok d ∧
      Layout.arrange? .words (.terminal 4) (.terminal 80) d = some (.ok (arranged, outcome)) ∧
      Picture.sheet? .words { boxReach := 4 } outcome.headerOffset arranged = some (.ok sheet) :=
    ⟨_, _, _, _, rfl, rfl, rfl⟩
  obtain ⟨d, arranged, outcome, sheet, parsed, arranges, measures⟩ := ran
  refine ⟨d, parsed, arranged, outcome, sheet, arranges, measures, fun p member => ?_⟩
  obtain ⟨_, _, layout, sheets⟩ :=
    labels_drawn_whole .words (.terminal 80) { boxReach := 4 } barAndLoops d parsed _ arranges
  cases layout
  obtain ⟨_, sameSheet, _, whole⟩ := sheets _ measures
  cases sameSheet
  obtain ⟨_, l, drawn, _⟩ := whole p member
  exact ⟨l, drawn⟩

end SequenceDiagram
