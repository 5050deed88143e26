import SequenceDiagram.Proofs.Canvas.Lines
import SequenceDiagram.Proofs.Picture.MessageRows
import SequenceDiagram.Proofs.Picture.RightEdge

/-! Labels as they are shown. Every character of a label that is no stroke is shown
where the label has it, whatever is drawn around the label or under it. A stroke is
not: the canvas takes it for a part of the drawing, joins it to what lies under it
and keeps of it the arms that meet a neighbour's. -/
namespace SequenceDiagram
open Layout

variable {measure : Measure} {page : Page} {style : Style} {d arranged : Diagram} {outcome : Outcome} {ends : List Ends}
  {p : PlacedMessage} {placed : List PlacedMessage} {c : Canvas} {a : Actor} {s : Shape} {ch : Char}
  {arms : Arms} {boxReach bottom headerOffset turn first last mid x y : Nat}

theorem Text.newline_fit {t : Text} {room : Nat} (free : '\n' ∉ t) : '\n' ∉ t.fit room := by
  rw [fit]
  split
  · exact free
  · split
    · exact List.not_mem_nil
    · rw [List.mem_append, List.mem_singleton]
      rintro (cut | mark)
      · exact free (List.mem_of_mem_take cut)
      · cases mark

theorem PlacedMessage.newline_label (p : PlacedMessage) (free : '\n' ∉ p.message.label) :
    '\n' ∉ (p.label boxReach).text := by
  rw [label]
  split
  · simp only [Loop.ofMid]
    exact Text.newline_fit free
  · exact Text.newline_fit free

namespace Shape

theorem newline_ofActor (named : '\n' ∉ a.name) : ∀ s ∈ ofActor bottom a, '\n' ∉ s.palette := by
  simp only [ofActor, List.forall_mem_cons]
  exact ⟨by simp [palette], named, by simp [palette], List.forall_mem_nil _⟩

theorem newline_ofActivation : ∀ s ∈ ofActivation boxReach mid first last, '\n' ∉ s.palette := by
  rw [ofActivation]
  refine List.forall_mem_append.mpr ⟨?_, List.forall_mem_singleton.mpr (by simp [palette])⟩
  split
  · exact List.forall_mem_singleton.mpr (by simp [palette])
  · exact List.forall_mem_nil _

theorem newline_ofMessage (labelled : '\n' ∉ (p.label boxReach).text) :
    ∀ s ∈ ofMessage boxReach p, '\n' ∉ s.palette := by
  have known : ∀ ch ∈ pieceChars, ch ≠ '\n' := by simp [pieceChars]
  obtain ⟨pieces, parts, each⟩ := ofMessage_eq boxReach p
  rw [parts]
  refine List.forall_mem_append.mpr ⟨?_, ?_⟩
  · intro s member newline
    rcases each s member with ⟨_, piece⟩ | piece
    · exact known _ (piece.known _ newline) rfl
    · exact known _ (piece.known _ newline) rfl
  · rw [ofLabel]
    split
    · exact List.forall_mem_nil _
    · exact List.forall_mem_singleton.mpr labelled

end Shape

namespace Picture

theorem newline_scenery (named : ∀ a ∈ d.cast.actors, '\n' ∉ a.name) :
    ∀ s ∈ scenery d headerOffset style, '\n' ∉ s.palette := by
  refine List.forall_mem_append.mpr ⟨List.forall_mem_flatMap.mpr ?_, List.forall_mem_flatMap.mpr ?_⟩
  · exact fun a member => Shape.newline_ofActor (named a member)
  · exact fun a _ => List.forall_mem_flatMap.mpr fun _ _ => Shape.newline_ofActivation

/-- A canvas shows no newline unless a name or a label has one. -/
theorem newline_free (drew : canvas d headerOffset style placed = .ok c)
    (named : ∀ a ∈ d.cast.actors, '\n' ∉ a.name)
    (labelled : ∀ p ∈ placed, '\n' ∉ (p.label style.boxReach).text) : ∀ x y, c.get x y ≠ .ok '\n' := by
  intro x y shown
  obtain ⟨cell, held, shown⟩ := Canvas.cell_of_get shown
  obtain ⟨wide, high⟩ := Canvas.lt_of_cell? held
  rw [(cell_of_canvas drew).2.2 x y wide high, ← Cell.writeAll_append, Option.some.injEq] at held
  have own := Canvas.char_of_shownBy rfl shown
  have visible : cell.char ≠ ' ' := by
    rw [own]
    decide
  rw [← held] at own visible
  have written := Cell.char_writeAll_mem.resolve_left visible
  rw [own] at written
  rcases List.mem_append.mp written with scenery | message
  · obtain ⟨s, drawn, here⟩ := List.mem_flatMap.mp scenery
    exact newline_scenery named s drawn (Shape.mem_palette_of_mem_charsAt here)
  · obtain ⟨p, member, message⟩ := List.mem_flatMap.mp message
    obtain ⟨s, drawn, here⟩ := List.mem_flatMap.mp message
    exact Shape.newline_ofMessage (labelled p member) s drawn (Shape.mem_palette_of_mem_charsAt here)

end Picture

/-- Names and labels of one line each are drawn without a newline. -/
theorem Layout.Arranged.newline_free (result : Arranged measure page d ends arranged outcome)
    (all : Picture.placeAll arranged headerOffset style = .ok placed)
    (drew : Picture.canvas arranged headerOffset style placed = .ok c) (single : d.OneLine) :
    ∀ x y, c.get x y ≠ .ok '\n' := by
  refine Picture.newline_free drew ?_ ?_
  · intro a member
    exact single.names _ (result.names_eq ▸ List.mem_map_of_mem member)
  · intro q member
    have sent : { q.message with rightward := none } ∈ d.messages :=
      result.undirected_placed all ▸ List.mem_map_of_mem member
    have free := single.labels _ sent
    exact q.newline_label free

namespace Layout.Arranged

variable (result : Arranged style.measure page d ends arranged outcome) (complete : d.Complete)
  (all : Picture.placeAll arranged outcome.headerOffset style = .ok placed) (tall : 2 ≤ style.rowHeight)
  (drew : Picture.canvas arranged outcome.headerOffset style placed = .ok c)
  (turned : placed[turn]? = some p) {offset : Nat} (spelled : p.message.label[offset]? = some ch)

include result complete all tall drew turned spelled

/-- In the place of a label's character the canvas holds that character, written
over a stroke at most. -/
theorem cell_of_label : ∃ under, c.cell? ((p.label style.boxReach).column + offset) (p.row - 1) =
    some (({ char := ' ', arms := under } : Cell).write ch) := by
  obtain ⟨e, settled⟩ := result.settled complete all (List.mem_of_getElem? turned)
  have under := Picture.row_pos all turned
  have whole := settled.label_text result.side_by_side
  have inside : (p.label style.boxReach).column + offset < c.width := by
    have held := Picture.stop_le_width drew (List.mem_of_getElem? turned)
    have short := p.label_stop_le_stop style.boxReach
    have spelled := (List.getElem?_eq_some_iff.mp spelled).1
    rw [Label.stop, whole] at short
    omega
  obtain ⟨arms, held⟩ :=
    result.cell_of_message complete all tall drew turned (y := p.row - 1) (.inr (by omega)) inside
  rw [Shape.charsAt_ofMessage_label under inside, whole, spelled] at held
  exact ⟨arms, held⟩

/-- A character that is no stroke is shown as it is. -/
theorem label_shown (plain : Arms.ofChar? ch = none) :
    c.get ((p.label style.boxReach).column + offset) (p.row - 1) = .ok ch := by
  obtain ⟨under, held⟩ := result.cell_of_label complete all tall drew turned spelled
  rw [Cell.write_plain plain] at held
  exact Canvas.get_of_cell held

/-- A stroke is joined to the arms under it. -/
theorem label_joined (stroke : Arms.ofChar? ch = some arms) : ∃ (under : Arms) (shown : Char),
    c.get ((p.label style.boxReach).column + offset) (p.row - 1) = .ok shown ∧
      (Arms.ofChar? shown).isSome = true ∧
      shown = c.shownBy ((p.label style.boxReach).column + offset) (p.row - 1)
        { char := ' ', arms := under.union arms } := by
  obtain ⟨under, held⟩ := result.cell_of_label complete all tall drew turned spelled
  rw [Cell.write_stroke stroke] at held
  refine ⟨under, _, Canvas.get_of_cell held, ?_, rfl⟩
  have joined : under.union arms ≠ .none := Arms.union_ne_none (Arms.ne_none_of_ofChar? stroke)
  exact ((c.shownBy_cases _ _ _).resolve_left fun bare => joined bare.1).2

end Layout.Arranged

/-- Every label is shown character for character, but for its strokes. What the
picture shows for a stroke is a stroke again, though not always the same one. -/
theorem labels_shown_but_for_strokes (pageWidth : Nat) (text : Text) (d : Diagram)
    (parsed : Diagram.parse text = .ok d)
    (roomy : Drawing.area (Style.measure {}) (.terminal pageWidth) {} text ≤ Canvas.maxArea) :
    ∃ arranged outcome placed drawing,
      Layout.arrange (Style.measure {}) (.terminal pageWidth) d = .ok (arranged, outcome) ∧
      Picture.placeAll arranged outcome.headerOffset {} = .ok placed ∧
      Drawing.ofText (Style.measure {}) (.terminal pageWidth) {} text = .ok drawing ∧
      ∀ turn m, d.messages[turn]? = some m → ∃ p canvas,
        placed[turn]? = some p ∧ { p.message with rightward := none } = m ∧
        Picture.canvas arranged outcome.headerOffset {} placed = .ok canvas ∧
        ∀ offset ch, m.label[offset]? = some ch →
          let x := (p.label 1).column + offset
          let y := outcome.headerOffset + 2 * (turn + 1) - 1
          (Arms.ofChar? ch = none → drawing.text.charAt x y = ch) ∧
          ∀ arms, Arms.ofChar? ch = some arms → (Arms.ofChar? (drawing.text.charAt x y)).isSome = true ∧
            ∃ under : Arms, drawing.text.charAt x y =
              canvas.shownBy x y { char := ' ', arms := under.union arms } := by
  obtain ⟨complete, ends, arranged, outcome, placed, done, result, all⟩ :=
    stages_of_parse (Style.measure {}) (.terminal pageWidth) {} parsed
  have fit := (result.holds_all_iff_boxes_fit complete all).mpr (Diagram.boxes_fit_of_short (by decide))
  obtain ⟨picture, painted⟩ := Picture.paint_succeeds all (Drawing.canvas_le_of_area_le parsed done all roomy) fit
  have drawn : Drawing.ofText (Style.measure {}) (.terminal pageWidth) {} text =
      .ok { text := picture, warnings := outcome.warnings } := by
    rw [Drawing.ofText_eq parsed done, painted]
    rfl
  refine ⟨arranged, outcome, placed, _, done, all, drawn, ?_⟩
  intro turn m message
  obtain ⟨canvas, drew, rfl⟩ :=
    Picture.canvas_of_paint (result.peopled complete (List.mem_of_getElem? message)) all painted
  obtain ⟨p, turned, rfl⟩ := result.placed_of_message all message
  refine ⟨p, canvas, turned, rfl, drew, ?_⟩
  have free := result.newline_free all drew (Diagram.parse_oneLine parsed)
  have row : p.row = outcome.headerOffset + 2 * (turn + 1) := by
    rw [Picture.row_of_turn all turned, Picture.rowOf, Nat.mul_comm 2]
    rfl
  intro offset ch spelled
  simp only [← row]
  refine ⟨fun plain => ?_, fun arms stroke => ?_⟩
  · exact canvas.charAt_picture free (result.label_shown complete all (Nat.le_refl 2) drew turned spelled plain)
  · obtain ⟨under, shown, there, isStroke, same⟩ :=
      result.label_joined complete all (Nat.le_refl 2) drew turned spelled stroke
    rw [Canvas.charAt_picture free there]
    exact ⟨isStroke, under, same⟩

/-- A label with a stroke in it, between two letters. -/
def cutByStroke : Text := "A -> B: a│b".toList

theorem labels_shown_but_for_strokes_cut_by_stroke : ∃ d drawing column row,
    Diagram.parse cutByStroke = .ok d ∧
    Drawing.area (Style.measure {}) (.terminal 120) {} cutByStroke ≤ Canvas.maxArea ∧
    Drawing.ofText (Style.measure {}) (.terminal 120) {} cutByStroke = .ok drawing ∧
    drawing.text.charAt column row = 'a' ∧
    (Arms.ofChar? (drawing.text.charAt (column + 1) row)).isSome = true ∧
    drawing.text.charAt (column + 2) row = 'b' := by
  have roomy : Drawing.area (Style.measure {}) (.terminal 120) {} cutByStroke ≤ Canvas.maxArea := by decide +kernel
  have read : (Diagram.parse cutByStroke).map (·.messages[0]?) = .ok (some
      { arrow := ⟨.thin, false⟩, source := ['A'], target := ['B'], label := ['a', '│', 'b'] }) := by decide +kernel
  obtain ⟨d, parsed, message⟩ := Attempt.map_eq_ok.mp read
  obtain ⟨_, _, _, drawing, _, _, drawn, shown⟩ := labels_shown_but_for_strokes 120 cutByStroke d parsed roomy
  obtain ⟨p, canvas, _, _, _, each⟩ := shown 0 _ message
  exact ⟨d, drawing, _, _, parsed, roomy, drawn, (each 0 'a' rfl).1 rfl, ((each 1 '│' rfl).2 _ rfl).1,
    (each 2 'b' rfl).1 rfl⟩

/-- A label of crosses between two actors. -/
def crosses : Text := "A -> B: ┼┼".toList

/-- Nothing meets the upper and lower arms of the crosses, so two dashes are shown. -/
theorem crosses_redrawn :
    (Drawing.ofText (Style.measure {}) (.terminal 120) {} crosses).map
      (fun drawing => [drawing.text.charAt 7 6, drawing.text.charAt 8 6]) = .ok ['─', '─'] := by
  decide +kernel

end SequenceDiagram
