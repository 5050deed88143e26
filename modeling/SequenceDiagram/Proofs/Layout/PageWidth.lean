import SequenceDiagram.Editor.Preview
import SequenceDiagram.Proofs.Layout.Turns

/-! The width of the page is a matter of warnings only. It is compared with the
widths of the headers once they stand, and nothing that is placed, decided or
painted looks at it. So a text has one picture, or one error, for pages of all
widths, and a screen of another size leaves the picture as it was. -/
namespace SequenceDiagram
open Layout

variable {measure : Measure} {page : Page} {style : Style} {d : Diagram} {text : Text} {width narrow wide : Nat}

/-- The actors whose header takes an equal share of a page of this width, or more,
in the order of the cast. -/
def Cast.wideHeaders (c : Cast) (pageWidth : Nat) : List Overflow :=
  (c.actors.zipIdx.filter fun (a, _) => pageWidth / c.size ≤ a.slot.width).map fun (a, index) =>
    { index, name := a.name, width := a.slot.width, share := pageWidth / c.size }

/-- Whoever is too wide for a page is too wide for every narrower one. -/
theorem Cast.wideHeaders_sublist (c : Cast) (order : narrow ≤ wide) :
    ((c.wideHeaders wide).map Overflow.index).Sublist ((c.wideHeaders narrow).map Overflow.index) := by
  unfold wideHeaders
  rw [List.map_map, List.map_map]
  refine List.Sublist.map Prod.snd (List.monotone_filter_right _ ?_)
  intro entry exceeds
  have smaller : narrow / c.size ≤ wide / c.size := Nat.div_le_div_right order
  simp only [decide_eq_true_eq] at exceeds ⊢
  omega

namespace Layout

theorem placeHeaders_width (actors : List Actor) (left : Nat) :
    placeHeaders measure { page with width } left actors = placeHeaders measure page left actors := by
  induction actors generalizing left with
  | nil => rfl
  | cons a rest ih => exact congrArg (_ :: ·) (ih _)

/-- The warnings can be told from the headers as they stand in the end, since no
turn of a message changes the width of one. -/
theorem overflows_eq_wideHeaders {cast placed : Cast}
    (kept : placed.actors.map Actor.anywhere = cast.actors.map (unplaced measure page)) :
    overflows measure page cast = placed.wideHeaders page.width := by
  have size : placed.size = cast.size := by simpa [Cast.size] using congrArg List.length kept
  have seen : placed.wideHeaders page.width = (placed.actors.map Actor.anywhere).zipIdx.filterMap fun (a, index) =>
      if page.width / cast.size ≤ a.slot.width then
        some { index, name := a.name, width := a.slot.width, share := page.width / cast.size } else none := by
    rw [List.zipIdx_map, List.filterMap_map, Cast.wideHeaders, size, ← List.filterMap_eq_map, ← List.filterMap_eq_filter,
      List.filterMap_filterMap]
    refine List.filterMap_congr ?_
    rintro ⟨a, index⟩ _
    by_cases exceeds : page.width / cast.size ≤ a.slot.width <;> simp [Option.guard, exceeds, Actor.anywhere]
  rw [seen, kept, List.zipIdx_map, List.filterMap_map]
  rfl

/-- A layout on a page of another width differs in its warnings and nowhere else. -/
theorem arrange_width (measure : Measure) (page : Page) (d : Diagram) (width : Nat) :
    arrange measure { page with width } d = (arrange measure page d).map fun (arranged, outcome) =>
      (arranged, { outcome with warnings := arranged.cast.wideHeaders width }) := by
  cases deserted : d.cast.isEmpty with
  | true =>
    have nobody : d.cast.wideHeaders width = [] := by
      rw [Cast.wideHeaders, List.isEmpty_iff.mp deserted]
      rfl
    simp only [arrange, deserted, if_true, Except.map, nobody]
  | false =>
    cases resolved : resolveEnds d with
    | error e => simp only [arrange, deserted, resolved, Bool.false_eq_true, if_false, Except.map]
    | ok ends =>
      have placed : (⟨grantAll (placeHeaders measure page page.gutter d.cast.actors) (demands measure d ends)⟩ :
          Cast).actors.map Actor.anywhere = d.cast.actors.map (unplaced measure { page with width }) := by
        rw [← row_after_all (Nat.le_refl _)]
        exact anywhere_row_after
      simp only [arrange, deserted, resolved, Bool.false_eq_true, if_false, Except.map, placeHeaders_width,
        overflows_eq_wideHeaders placed]

end Layout

theorem Diagram.ofText_width (measure : Measure) (page : Page) (text : Text) (width : Nat) :
    Diagram.ofText measure { page with width } text =
      (Diagram.ofText measure page text).map fun (arranged, outcome) =>
        (arranged, { outcome with warnings := arranged.cast.wideHeaders width }) := by
  unfold Diagram.ofText
  cases Diagram.parse text with
  | error e => rfl
  | ok d =>
    have other := Layout.arrange_width measure page d width
    simp only [other]
    cases Layout.arrange measure page d <;> rfl

namespace Drawing

variable {outcome : Outcome}

theorem ofText_of_error {e : DrawingError} (refused : Diagram.ofText measure page text = .error e) :
    ofText measure page style text = .error e := by
  simp only [ofText, refused]

theorem ofText_of_ok (style : Style) (done : Diagram.ofText measure page text = .ok (d, outcome)) :
    ofText measure page style text = ((Picture.paint style outcome.headerOffset d).mapError .paint).map
      fun picture => { text := picture, warnings := outcome.warnings } := by
  simp only [ofText, done]
  cases Picture.paint style outcome.headerOffset d <;> rfl

/-- One page is enough to know the drawings on pages of all widths. -/
theorem ofText_width (measure : Measure) (page : Page) (style : Style) (text : Text) (width : Nat) :
    (ofText measure { page with width } style text).map Drawing.text =
      (ofText measure page style text).map Drawing.text := by
  have other := Diagram.ofText_width measure page text width
  cases drawn : Diagram.ofText measure page text with
  | error e =>
    rw [drawn] at other
    rw [ofText_of_error drawn, ofText_of_error other]
  | ok result =>
    rw [drawn] at other
    rw [ofText_of_ok style drawn, ofText_of_ok style other]
    cases Picture.paint style result.2.headerOffset result.1 <;> rfl

end Drawing

/-- On a screen of another size the picture of a text stays as it is, and so does all
but the notice. -/
theorem Preview.refresh_resize {p : Preview} {earlier : Nat} {drawing : Drawing}
    (drawn : Drawing.ofText p.style.measure { p.page with width := earlier } p.style text = .ok drawing)
    (shown : p.picture = some drawing.text) (screenWidth screenHeight now : Nat) :
    (p.resize screenWidth screenHeight now).refresh text = { p.resize screenWidth screenHeight now with
      notice := ((p.resize screenWidth screenHeight now).refresh text).notice } := by
  have same := Drawing.ofText_width p.style.measure { p.page with width := earlier } p.style text
    (pageWidth screenWidth p.page.gutter)
  rw [drawn] at same
  obtain ⟨again, redrawn, unchanged⟩ := Attempt.map_eq_ok.mp same
  have refreshed : (p.resize screenWidth screenHeight now).draw text = .ok again := redrawn
  have picture : some again.text = (p.resize screenWidth screenHeight now).picture := by
    rw [unchanged]
    exact shown.symm
  simp only [refresh, refreshed, picture]

/-- A text and a measure decide all there is to see. Either the text is refused on
pages of all widths with one error, or it has one diagram, with the same places and
directions, and one picture or one error in its place. The width of the page only
decides on the warnings: they are of the headers that take their share of it, so
they get fewer as pages get wider. After a change of the screen, the text that a
preview shows is drawn as before, and only the notice can be another. -/
theorem page_width_only_warns (measure : Measure) (page : Page) (style : Style) (text : Text) :
    ((∃ e, ∀ width, Diagram.ofText measure { page with width } text = .error e ∧
        Drawing.ofText measure { page with width } style text = .error e) ∨
      ∃ (d : Diagram) (outcome : Outcome),
        (∀ width, Diagram.ofText measure { page with width } text =
          .ok (d, { outcome with warnings := d.cast.wideHeaders width })) ∧
        ((∃ e, ∀ width, Drawing.ofText measure { page with width } style text = .error e) ∨
          ∃ picture, ∀ width, Drawing.ofText measure { page with width } style text =
            .ok { text := picture, warnings := d.cast.wideHeaders width }) ∧
        ∀ narrow wide, narrow ≤ wide →
          ((d.cast.wideHeaders wide).map Overflow.index).Sublist ((d.cast.wideHeaders narrow).map Overflow.index)) ∧
    ∀ (p : Preview) (earlier : Nat) (drawing : Drawing),
      Drawing.ofText p.style.measure { p.page with width := earlier } p.style text = .ok drawing →
      p.picture = some drawing.text → ∀ screenWidth screenHeight now,
        let resized := p.resize screenWidth screenHeight now
        resized.refresh text = { resized with notice := (resized.refresh text).notice } ∧
          (resized.refresh text).picture = p.picture := by
  refine ⟨?_, ?_⟩
  · have others := Diagram.ofText_width measure page text
    cases drawn : Diagram.ofText measure page text with
    | error e =>
      rw [drawn] at others
      exact .inl ⟨e, fun width => ⟨others width, Drawing.ofText_of_error (others width)⟩⟩
    | ok result =>
      obtain ⟨d, outcome⟩ := result
      rw [drawn] at others
      refine .inr ⟨d, outcome, others, ?_, fun narrow wide => d.cast.wideHeaders_sublist⟩
      have painted := fun width => Drawing.ofText_of_ok style (others width)
      cases paints : Picture.paint style outcome.headerOffset d with
      | error e =>
        simp only [paints] at painted
        exact .inl ⟨.paint e, painted⟩
      | ok picture =>
        simp only [paints] at painted
        exact .inr ⟨picture, painted⟩
  · intro p earlier drawing drawn shown screenWidth screenHeight now resized
    have refreshed := Preview.refresh_resize drawn shown screenWidth screenHeight now
    refine ⟨refreshed, ?_⟩
    rw [refreshed]
    rfl

/-- A header that only a narrow screen is too small for. -/
def longName : Text := "A -> A Rather Long Name: x".toList

theorem page_width_only_warns_long_name :
    let p := (Preview.ofScreen 200 40).refresh longName
    let resized := p.resize 40 40 0
    (∃ drawing, Drawing.ofText p.style.measure { p.page with width := 156 } p.style longName = .ok drawing ∧
      p.picture = some drawing.text) ∧ p.notice = none ∧
    (resized.refresh longName).notice = some "Label #1 ('A Rather Long Name') is very large.".toList ∧
    resized.refresh longName = { resized with notice := (resized.refresh longName).notice } := by
  intro p resized
  have first : ((Preview.ofScreen 200 40).draw longName).map Drawing.warnings = .ok [] := by decide +kernel
  obtain ⟨drawing, first, quiet⟩ := Attempt.map_eq_ok.mp first
  have refreshed : p = { Preview.ofScreen 200 40 with picture := some drawing.text } := by
    simp only [p, Preview.refresh, first, quiet]
    rfl
  have drawn : Drawing.ofText p.style.measure { p.page with width := 156 } p.style longName = .ok drawing := by
    rw [refreshed]
    exact first
  have shown : p.picture = some drawing.text := by rw [refreshed]
  refine ⟨⟨drawing, drawn, shown⟩, by rw [refreshed]; rfl, by decide +kernel, ?_⟩
  exact ((page_width_only_warns p.style.measure p.page p.style longName).2 p 156 drawing drawn shown 40 40 0).1

end SequenceDiagram
