import SequenceDiagram.Proofs.Layout.Headers
import SequenceDiagram.Proofs.Picture.HeaderBox
import SequenceDiagram.Proofs.Picture.ShownLabels

/-! The rows of the headers. Boxes and messages begin below the headers, and the
headers keep apart, so what is seen in the place of a header is what its own actor
drew there, and between the headers nothing is seen. -/
namespace SequenceDiagram
open Layout

variable {measure : Measure} {page : Page} {style : Style} {d arranged : Diagram} {outcome : Outcome}
  {ends : List Ends} {placed : List PlacedMessage} {p : PlacedMessage} {c : Canvas} {a b : Actor} {s : Shape}
  {side : Side} {ch : Char} {bottom boxReach mid first last width headerOffset x y : Nat}

/-- An activation box lies between the row above its first and the row below its last. -/
theorem Shape.rows_of_ofActivation (order : first ≤ last) (member : s ∈ ofActivation boxReach mid first last) :
    first - 1 ≤ s.highest ∧ s.anchor.2 ≤ last + 1 := by
  rw [ofActivation, List.mem_append, List.mem_singleton] at member
  rcases member with erased | rfl
  · split at erased
    · rw [List.mem_singleton.mp erased, highest, anchor]
      dsimp only
      omega
    · cases erased
  · rw [highest, anchor]
    dsimp only
    omega

theorem Picture.headerOffset_le_rowOf (headerOffset : Nat) (style : Style) (line : Nat) :
    headerOffset ≤ rowOf headerOffset style line := Nat.le_add_right _ _

namespace Layout.Arranged

/-- The rows of the messages begin right below the lowest row of the headers. -/
theorem headerOffset_eq_lastRow (result : Arranged measure page d ends arranged outcome)
    (framed : ∀ a ∈ arranged.cast.actors, a.Framed page) (member : a ∈ arranged.cast.actors) :
    outcome.headerOffset = page.lastRow + 1 := by
  have lines := (framed a member).lines
  rw [result.headerOffset, headerOffset_of_level (List.ne_nil_of_mem member) fun a => result.bottom_eq, Page.lastRow]
  omega

variable (result : Arranged measure page d ends arranged outcome) (complete : d.Complete)
  (all : Picture.placeAll arranged outcome.headerOffset style = .ok placed) (tall : 2 ≤ style.rowHeight)
include result complete all tall

/-- Boxes and messages lie below the first row under the headers, and above the lowest
row of the canvas. -/
theorem rows_of_foreground (member : s ∈ Picture.foreground arranged outcome.headerOffset style placed) :
    outcome.headerOffset < s.highest ∧
      s.anchor.2 < Picture.rowOf outcome.headerOffset style (arranged.lineCount + 1) := by
  have start : Picture.rowOf outcome.headerOffset style 0 = outcome.headerOffset := by
    rw [Picture.rowOf, Nat.zero_mul, Nat.add_zero]
  rcases List.mem_append.mp member with box | message
  · obtain ⟨a, held, box⟩ := List.mem_flatMap.mp box
    obtain ⟨⟨first, last⟩, interval, box⟩ := List.mem_flatMap.mp box
    obtain ⟨b, origin, _, lived⟩ := result.actor_origin held
    obtain ⟨after, order, inside⟩ := complete.intervals_within origin (lived.symm ▸ interval)
    have rows := Shape.rows_of_ofActivation (Picture.rowOf_le order) box
    have upper : Picture.rowOf outcome.headerOffset style 0 + 2 ≤ Picture.rowOf outcome.headerOffset style first :=
      Picture.rows_apart tall after
    have lower : Picture.rowOf outcome.headerOffset style last + 2 ≤
        Picture.rowOf outcome.headerOffset style (arranged.lineCount + 1) :=
      Picture.rows_apart tall (by rw [result.lineCount]; omega)
    omega
  · obtain ⟨p, isPlaced, message⟩ := List.mem_flatMap.mp message
    obtain ⟨turn, turned⟩ := List.mem_iff_getElem?.mp isPlaced
    have row := Picture.row_of_turn all turned
    have inside : turn < arranged.lineCount := by
      rw [result.lineCount, ← complete.lineCount, ← result.length_messages, (Picture.placeAll_eq_ok.mp all).1]
      exact (List.getElem?_eq_some_iff.mp turned).1
    have upper : Picture.rowOf outcome.headerOffset style 0 + 2 ≤ Picture.rowOf outcome.headerOffset style (turn + 1) :=
      Picture.rows_apart tall (Nat.succ_pos turn)
    have lower : Picture.rowOf outcome.headerOffset style (turn + 1) + 2 ≤
        Picture.rowOf outcome.headerOffset style (arranged.lineCount + 1) := Picture.rows_apart tall (by omega)
    rcases Shape.level_ofMessage s message with level | level
    · obtain ⟨top, low⟩ := Shape.rows_of_level level
      omega
    · obtain ⟨top, low⟩ := Shape.rows_of_level level
      omega

variable (drew : Picture.canvas arranged outcome.headerOffset style placed = .ok c)
  (free : y ≤ outcome.headerOffset ∨ y = Picture.rowOf outcome.headerOffset style (arranged.lineCount + 1))
include drew free

/-- In a row that boxes and messages leave free there is what the actors drew. -/
theorem cell_of_free_row (wide : x < c.width) : c.cell? x y = some (({ char := ' ' } : Cell).writeAll
    (arranged.cast.actors.flatMap fun a =>
      (Shape.ofActor (Picture.rowOf outcome.headerOffset style (arranged.lineCount + 1)) a).flatMap
        (·.charsAt c.width x y))) := by
  obtain ⟨_, height, cells⟩ := Picture.cell_of_canvas drew
  have start := Picture.headerOffset_le_rowOf outcome.headerOffset style (arranged.lineCount + 1)
  have high : y < c.height := by
    rw [height, Picture.canvasHeight]
    omega
  have nothing : ∀ s ∈ Picture.foreground arranged outcome.headerOffset style placed, s.charsAt c.width x y = [] := by
    intro s member
    have rows := result.rows_of_foreground complete all tall member
    refine Spot.charsAt_eq_nil fun spot drawn _ => ?_
    have inside := Shape.rows_of_footprint drawn
    omega
  have boxes : (arranged.cast.actors.flatMap (Picture.activations outcome.headerOffset style)).flatMap
      (·.charsAt c.width x y) = [] :=
    List.flatMap_eq_nil_iff.mpr fun s member => nothing s (List.mem_append_left _ member)
  have messages : placed.flatMap (fun p => (Shape.ofMessage style.boxReach p).flatMap (·.charsAt c.width x y)) = [] := by
    rw [← List.flatMap_assoc]
    exact List.flatMap_eq_nil_iff.mpr fun s member => nothing s (List.mem_append_right _ member)
  rw [cells x y wide high, messages, Picture.scenery, List.flatMap_append, boxes, List.append_nil, List.flatMap_assoc]
  rfl

variable (framed : ∀ a ∈ arranged.cast.actors, a.Framed page)
include framed

/-- Outside of the headers' columns, and above the headers, a free row is blank. -/
theorem cell_beside_headers (wide : x < c.width)
    (beside : ∀ a ∈ arranged.cast.actors, a.slot.left ≤ x → x < a.slot.right → y < page.gutter) :
    c.cell? x y = some { char := ' ' } := by
  have nothing : (arranged.cast.actors.flatMap fun a =>
      (Shape.ofActor (Picture.rowOf outcome.headerOffset style (arranged.lineCount + 1)) a).flatMap
        (·.charsAt c.width x y)) = [] := by
    refine List.flatMap_eq_nil_iff.mpr fun a member => List.eq_nil_iff_forall_not_mem.mpr fun ch written => ?_
    have offset := result.headerOffset_eq_lastRow framed member
    have start := Picture.headerOffset_le_rowOf outcome.headerOffset style (arranged.lineCount + 1)
    have low : page.lastRow ≤ Picture.rowOf outcome.headerOffset style (arranged.lineCount + 1) := by omega
    obtain ⟨left, right, below⟩ := (framed a member).within_of_charsAt low written
    have above := beside a member left right
    omega
  rw [result.cell_of_free_row complete all tall drew free wide, nothing]
  rfl

/-- In the columns of a header a free row has what its own actor drew. -/
theorem cell_of_header (member : a ∈ arranged.cast.actors) (left : a.slot.left ≤ x) (right : x < a.slot.right) :
    ∃ arms, c.cell? x y = some { char := (a.letter? page x y).getD ' ', arms } ∧
      ∀ side, arms.has side = true ↔ a.HeaderRuns page x y side := by
  have start := Picture.headerOffset_le_rowOf outcome.headerOffset style (arranged.lineCount + 1)
  have offset := result.headerOffset_eq_lastRow framed member
  have low : page.lastRow ≤ Picture.rowOf outcome.headerOffset style (arranged.lineCount + 1) := by omega
  have wide : x < c.width := by
    have held : a.slot.right ≤ Picture.stop arranged.cast style placed := Picture.right_le_stop member
    rw [(Picture.cell_of_canvas drew).1, Picture.canvasWidth]
    omega
  obtain ⟨i, here⟩ := List.mem_iff_getElem?.mp member
  have others : ∀ j b, j ≠ i → arranged.cast.actors[j]? = some b →
      (Shape.ofActor (Picture.rowOf outcome.headerOffset style (arranged.lineCount + 1)) b).flatMap
        (·.charsAt c.width x y) = [] := by
    refine fun j b another there => List.eq_nil_iff_forall_not_mem.mpr fun ch written => ?_
    obtain ⟨after, before, _⟩ := (framed b (List.mem_of_getElem? there)).within_of_charsAt low written
    -- what stands left of a header ends before its columns, what stands right begins after them
    rcases Nat.lt_or_gt_of_ne another with earlier | later
    · have apart := result.apart earlier there here
      omega
    · have apart := result.apart later here there
      omega
  obtain ⟨arms, written, runs⟩ := (framed a member).writeAll_ofActor low wide (by omega : y ≤ _)
  refine ⟨arms, ?_, runs⟩
  rw [result.cell_of_free_row complete all tall drew free wide, flatMap_eq_of_others here others, written]

end Layout.Arranged

/-- The lifelines end in the lowest row of the canvas, so a picture with somebody in it
has all its rows. -/
theorem Layout.Arranged.length_split_picture (result : Arranged measure page d ends arranged outcome)
    (complete : d.Complete) (all : Picture.placeAll arranged outcome.headerOffset style = .ok placed)
    (tall : 2 ≤ style.rowHeight) (drew : Picture.canvas arranged outcome.headerOffset style placed = .ok c)
    (framed : ∀ a ∈ arranged.cast.actors, a.Framed page) (member : a ∈ arranged.cast.actors)
    (free : ∀ x y, c.get x y ≠ .ok '\n') : c.picture.split.length = c.height := by
  obtain ⟨after, before⟩ := (framed a member).mid_between
  have offset := result.headerOffset_eq_lastRow framed member
  have start := Picture.headerOffset_le_rowOf outcome.headerOffset style (arranged.lineCount + 1)
  obtain ⟨arms, held, runs⟩ := result.cell_of_header complete all tall drew (.inr rfl) framed member
    (Nat.le_of_lt after) (Nat.lt_of_succ_lt before)
  have line : arms.has .down = true := (runs .down).mpr (.inr ⟨rfl, by omega, .inr rfl⟩)
  have drawn : arms ≠ .none := by
    rintro rfl
    cases line
  exact Canvas.length_split_picture free (Picture.cell_of_canvas drew).2.1 (Canvas.get_of_cell held)
    (Canvas.shownBy_ne_blank drawn)

namespace Layout.Arranged

variable (result : Arranged measure page d ends arranged outcome) (complete : d.Complete)
  (all : Picture.placeAll arranged outcome.headerOffset style = .ok placed) (tall : 2 ≤ style.rowHeight)
  (drew : Picture.canvas arranged outcome.headerOffset style placed = .ok c)
  (framed : ∀ a ∈ arranged.cast.actors, a.Framed page) (member : a ∈ arranged.cast.actors)
  (left : a.slot.left ≤ x) (right : x < a.slot.right)
include result complete all tall drew framed member left right

theorem armsAt_header (high : y ≤ outcome.headerOffset) :
    (c.armsAt x y).has side = true ↔ a.HeaderRuns page x y side := by
  obtain ⟨arms, held, runs⟩ := result.cell_of_header complete all tall drew (.inl high) framed member left right
  rw [Canvas.armsAt, held]
  exact runs side

/-- In a header every arm is met, but for that of the lifeline towards the name. -/
theorem joins_header (high : y ≤ page.lastRow) : c.joins x y side = true ↔
    a.HeaderRuns page x y side ∧ (side = .up → x ≠ a.mid) := by
  have offset := result.headerOffset_eq_lastRow framed member
  obtain ⟨after, before⟩ := (framed a member).mid_between
  have under := (framed a member).nameRow_between
  have arms {x y : Nat} {side : Side} (left : a.slot.left ≤ x) (right : x < a.slot.right) (high : y ≤ outcome.headerOffset) :
      (c.armsAt x y).has side = true ↔ a.HeaderRuns page x y side :=
    result.armsAt_header complete all tall drew framed member left right high
  rw [Canvas.joins, Bool.and_eq_true, arms left right (by omega)]
  -- a line that goes on to a side does so in the same header, or in the lifeline's first row below it
  refine and_congr_right fun runs => ?_
  cases side with
  | left =>
    simp only [Actor.HeaderRuns, Shape.FrameRuns, reduceCtorEq, or_self, and_false, or_false] at runs
    rw [Canvas.neighbour, if_pos (by omega), arms (by omega) (by omega) (by omega)]
    refine iff_of_true (.inl ?_) (by rintro ⟨⟩)
    dsimp only [Side.opposite, Shape.FrameRuns]
    omega
  | right =>
    simp only [Actor.HeaderRuns, Shape.FrameRuns, reduceCtorEq, or_self, and_false, or_false] at runs
    rw [Canvas.neighbour, arms (by omega) (by omega) (by omega)]
    refine iff_of_true (.inl ?_) (by rintro ⟨⟩)
    dsimp only [Side.opposite, Shape.FrameRuns]
    omega
  | up =>
    simp only [Actor.HeaderRuns, Shape.FrameRuns, true_or, and_true] at runs
    rw [Canvas.neighbour, if_pos (by omega), arms left right (by omega)]
    simp only [Side.opposite, Actor.HeaderRuns, Shape.FrameRuns, or_true, and_true, forall_const]
    omega
  | down =>
    simp only [Actor.HeaderRuns, Shape.FrameRuns, or_true, and_true] at runs
    rw [Canvas.neighbour, arms left right (by omega)]
    refine iff_of_true ?_ (by rintro ⟨⟩)
    simp only [Side.opposite, Actor.HeaderRuns, Shape.FrameRuns, true_or, and_true]
    omega

omit left right

variable {column line : Nat} (wide : column < a.slot.width) (high : line < page.lineHeight)
include wide high

/-- In a header the lines are joined where they go on. -/
theorem joins_iff_meets : c.joins (a.slot.left + column) (page.gutter + line) side = true ↔
    a.HeaderMeets page column line side := by
  obtain ⟨after, before⟩ := (framed a member).mid_between
  have lines := (framed a member).lines
  have inside : a.slot.left + column < a.slot.right := Nat.add_lt_add_left wide _
  have top : page.gutter + line ≤ page.lastRow := by
    rw [Page.lastRow]
    omega
  rw [result.joins_header complete all tall drew framed member (Nat.le_add_right _ _) inside top]
  rw [Slot.right] at before
  cases side <;>
    simp only [Actor.HeaderRuns, Actor.HeaderMeets, Shape.FrameRuns, Page.lastRow, Slot.right, reduceCtorEq, or_self,
      and_false, or_false, or_true, and_true, forall_const, false_implies] <;>
    omega

/-- A header shows its frame and its name, cell by cell. -/
theorem get_headerChar :
    c.get (a.slot.left + column) (page.gutter + line) = .ok (a.headerChar page column line) := by
  have inside : a.slot.left + column < a.slot.right := Nat.add_lt_add_left wide _
  have offset := result.headerOffset_eq_lastRow framed member
  rw [Page.lastRow] at offset
  obtain ⟨own, held, runs⟩ := result.cell_of_header complete all tall drew
    (.inl (by omega : page.gutter + line ≤ _)) framed member (Nat.le_add_right _ column) inside
  by_cases edge : line = 0 ∨ line + 1 = page.lineHeight ∨ column = 0 ∨ column + 1 = a.slot.width
  · obtain ⟨arms, some_side, meets, shown⟩ := (framed a member).stroke_of_edge wide high edge
    rw [shown]
    refine Canvas.get_of_joins held (fun side => Bool.eq_iff_iff.mpr ?_) some_side
    exact (result.joins_iff_meets complete all tall drew framed member wide high).trans (meets side).symm
  · obtain ⟨bare, shown⟩ := Actor.letter_of_inner wide high edge
    have empty : own = .none := Arms.ext_has fun side => by
      rw [Bool.eq_iff_iff, runs]
      exact iff_of_false (bare side) (by cases side <;> exact Bool.false_ne_true)
    rw [Canvas.get_of_cell held, Canvas.shownBy, empty, shown]
    rfl

end Layout.Arranged

/-- Where a header is measured by its characters, the actors of a text are framed. -/
theorem Layout.Arranged.framed_of_parse {text : Text} (result : Arranged measure page d ends arranged outcome)
    (counted : ∀ name, measure.header name = name.length) (gutter : 1 ≤ page.gutter) (lines : 3 ≤ page.lineHeight)
    (parsed : Diagram.parse text = .ok d) : ∀ a ∈ arranged.cast.actors, a.Framed page := by
  intro a member
  have header := result.has_header member
  obtain ⟨spelled, known⟩ := Diagram.names_parse (P := fun name => name ≠ [] ∧ ∀ ch ∈ name, isNameChar ch = true)
    (fun _ => Diagram.name_of_actorToken) parsed a.name (result.names_eq ▸ List.mem_map_of_mem member)
  exact ⟨counted a.name ▸ header.width, header.top, header.height, List.length_pos_iff.mpr spelled,
    fun ch letter => plain_of_isNameChar (known ch letter), gutter, lines⟩

/-- The picture of a text with a message begins with its headers and nothing else. The
rows above them are blank. The rows of the headers show each actor's closed frame
with the name in it and a tee where the lifeline leaves it, and are blank beside the
frames, since every activation box, bar, loop and label is drawn further down. The
picture has all its rows, down to the one where the lifelines end. This is so of every
picture that is laid out and painted before a number can no longer be counted. -/
theorem header_rows_show_headers_only (n : Counting) (measure : Measure) (page : Page) (style : Style) (text : Text)
    (d : Diagram) (counted : ∀ name, measure.header name = name.length) (gutter : 1 ≤ page.gutter)
    (lines : 3 ≤ page.lineHeight) (tall : 2 ≤ style.rowHeight) (parsed : Diagram.parse text = .ok d)
    (told : d.messages ≠ []) (layout : Except LayoutError (Diagram × Outcome))
    (arranges : Layout.arrange? n measure page d = some layout) :
    ∃ arranged outcome, layout = .ok (arranged, outcome) ∧ outcome.headerOffset = page.gutter + page.lineHeight ∧
      (∀ sheet, Picture.sheet? n style outcome.headerOffset arranged = some (.ok sheet) →
        ∀ drawn, some drawn ∈ Picture.foreground? n style outcome.headerOffset arranged sheet.placed →
          ∀ s ∈ drawn, ∀ width, ∀ spot ∈ s.footprint width, outcome.headerOffset < spot.y) ∧
      ∀ picture, Picture.paint? n style outcome.headerOffset arranged = some (.ok picture) →
        (∃ sheet, Picture.sheet? n style outcome.headerOffset arranged = some (.ok sheet)) ∧
        picture.split.length = outcome.headerOffset + (d.lineCount + 1) * style.rowHeight + 1 ∧
        (∀ x y, y < page.gutter → picture.charAt x y = ' ') ∧
        (∀ a ∈ arranged.cast.actors, ∀ column line, column < a.slot.width → line < page.lineHeight →
          picture.charAt (a.slot.left + column) (page.gutter + line) = a.headerChar page column line) ∧
        ∀ x line, line < page.lineHeight →
          (∀ a ∈ arranged.cast.actors, ¬(a.slot.left ≤ x ∧ x < a.slot.left + a.slot.width)) →
          picture.charAt x (page.gutter + line) = ' ' := by
  obtain ⟨complete, ends, arranged, outcome, placed, done, result, all⟩ := stages_of_parse measure page style parsed
  obtain ⟨m, others, messages⟩ := List.exists_cons_of_ne_nil told
  have peopled := result.peopled complete (messages ▸ List.mem_cons_self : m ∈ d.messages)
  have framed := result.framed_of_parse counted gutter lines parsed
  obtain ⟨first, member⟩ := List.exists_mem_of_ne_nil _ (List.isEmpty_eq_false_iff.mp peopled)
  have offset := result.headerOffset_eq_lastRow framed member
  rw [Page.lastRow] at offset
  refine ⟨arranged, outcome, (arrange?_yields layout arranges).trans done, by omega, ?_, fun picture painted => ?_⟩
  · intro sheet measured drawn piece s member width spot inside
    have same := Picture.sheet?_yields _ measured
    rw [all] at same
    cases same
    have below := (result.rows_of_foreground complete all tall (Picture.mem_foreground_of_piece piece member)).1
    exact Nat.lt_of_lt_of_le below (Shape.rows_of_footprint inside).1
  obtain ⟨c, ran, rfl⟩ := Picture.canvas?_of_paint? peopled painted
  have drew := Picture.canvas_of_canvas? all ran
  have free := result.newline_free all drew (Diagram.parse_oneLine parsed)
  have height : c.height = Picture.rowOf outcome.headerOffset style (arranged.lineCount + 1) + 1 :=
    (Picture.cell_of_canvas drew).2.1
  have start := Picture.headerOffset_le_rowOf outcome.headerOffset style (arranged.lineCount + 1)
  have blank (x y : Nat) (high : y ≤ outcome.headerOffset)
      (beside : ∀ a ∈ arranged.cast.actors, a.slot.left ≤ x → x < a.slot.right → y < page.gutter) :
      c.picture.charAt x y = ' ' := by
    rw [Canvas.charAt_picture_eq free (by omega)]
    rcases Nat.lt_or_ge x c.width with wide | beyond
    · rw [result.cell_beside_headers complete all tall drew (.inl high) framed wide beside]
      rfl
    · rw [Canvas.cell?_of_not_inBounds fun on => absurd (Canvas.inBounds_iff.mp on).1 (by omega)]
      rfl
  refine ⟨Picture.sheet?_of_canvas? ran, ?_, ?_, ?_, ?_⟩
  · rw [result.length_split_picture complete all tall drew framed member free, height, Picture.rowOf, result.lineCount,
      Nat.max_eq_left (by omega)]
  · exact fun x y above => blank x y (by omega) fun _ _ _ _ => above
  · intro a held column line wide high
    exact Canvas.charAt_picture free (result.get_headerChar complete all tall drew framed held wide high)
  · intro x line high beside
    exact blank x _ (by omega) fun a held left right => absurd ⟨left, right⟩ (beside a held)

/-- A heavy bar and a loop, right below headers of four rows on a narrow page. -/
def lowHeaders : Text := "A => Bob: over\nBob -> Bob: and out".toList

theorem header_rows_show_headers_only_low_headers : ∃ d arranged outcome picture,
    Diagram.parse lowHeaders = .ok d ∧
    Layout.arrange? .words .cells { width := 10, gutter := 1, lineHeight := 4 } d = some (.ok (arranged, outcome)) ∧
    Picture.paint? .words { rowHeight := 3 } outcome.headerOffset arranged = some (.ok picture) ∧
    picture.split.length = 15 ∧ picture.charAt 2 3 = 'A' ∧ picture.charAt 2 4 = '┬' ∧ picture.charAt 4 4 = ' ' := by
  have ran : ((Diagram.parse lowHeaders).toOption.bind fun d =>
      (Layout.arrange? .words .cells { width := 10, gutter := 1, lineHeight := 4 } d).bind fun layout =>
        layout.toOption.bind fun layout =>
          (Picture.paint? .words { rowHeight := 3 } layout.2.headerOffset layout.1).bind fun picture =>
            picture.toOption.bind fun _ => some (d.messages.isEmpty, d.lineCount,
              layout.1.cast.actors.map fun a => (a.name, a.slot.left, a.slot.width))) =
      some (false, 2, [(['A'], 1, 3), ("Bob".toList, 5, 5)]) := by
    decide +kernel
  simp only [Option.bind_eq_some_iff, Attempt.toOption_eq_some, Option.some.injEq, Prod.mk.injEq] at ran
  obtain ⟨d, parsed, _, done, ⟨arranged, outcome⟩, rfl, _, painted, picture, rfl, told, lineCount, places⟩ := ran
  obtain ⟨_, _, same, offset, _, seen⟩ := header_rows_show_headers_only .words .cells
    { width := 10, gutter := 1, lineHeight := 4 } { rowHeight := 3 } lowHeaders d (fun _ => rfl) (by decide) (by decide)
    (by decide) parsed (List.isEmpty_eq_false_iff.mp told) _ done
  cases same
  obtain ⟨a, rest, actors, first, places⟩ := List.map_eq_cons_iff.mp places
  obtain ⟨b, rest, rfl, second, places⟩ := List.map_eq_cons_iff.mp places
  cases List.map_eq_nil_iff.mp places
  simp only [Prod.mk.injEq] at first second
  obtain ⟨name, left, width⟩ := first
  obtain ⟨_, leftToo, _⟩ := second
  have mid : a.mid = 2 := by rw [Actor.mid, Slot.mid, left, width]
  obtain ⟨_, rows, _, shown, beside⟩ := seen picture painted
  have own := shown a (actors ▸ List.mem_cons_self) 1
  rw [left, width] at own
  refine ⟨d, arranged, outcome, picture, parsed, done, painted, ?_, ?_, ?_, ?_⟩
  · rw [rows, offset, lineCount]
    rfl
  · rw [own 2 (by decide) (by decide), Actor.headerChar, width, name]
    rfl
  · rw [own 3 (by decide) (by decide), Actor.headerChar, width, left, mid]
    rfl
  · refine beside 4 3 (by decide) fun c held => ?_
    rw [actors, List.mem_pair] at held
    rcases held with rfl | rfl <;> omega

end SequenceDiagram
