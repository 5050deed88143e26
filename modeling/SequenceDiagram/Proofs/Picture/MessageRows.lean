import SequenceDiagram.Proofs.Canvas.Cells
import SequenceDiagram.Proofs.Picture.Extent

/-! The two rows of a message. From two rows a message on, the rows of bars and
the rows of labels are all different, and all lie below the headers. So what a
message writes to its rows stays: under it there are only the lifelines and the
boxes, which are strokes and spaces, and nobody writes there after it. -/
namespace SequenceDiagram
open Layout

variable {measure : Measure} {page : Page} {style : Style} {d arranged : Diagram} {outcome : Outcome}
  {ends : List Ends} {p other : PlacedMessage} {placed : List PlacedMessage} {c : Canvas} {a : Actor}
  {s : Shape} {t : Text} {ch : Char}
  {boxReach bottom headerOffset turn line later first last mid width row x y : Nat}

/-- What only one member of a list has anything of is what this member has. -/
theorem flatMap_eq_of_others {α : Type} {f : α → Text} {as : List α} {a : α} {i : Nat} (here : as[i]? = some a)
    (others : ∀ j b, j ≠ i → as[j]? = some b → f b = []) : as.flatMap f = f a := by
  obtain ⟨inside, rfl⟩ := List.getElem?_eq_some_iff.mp here
  have whole : as = as.take i ++ as[i] :: as.drop (i + 1) := by simp
  have before : (as.take i).flatMap f = [] := by
    rw [List.flatMap_eq_nil_iff]
    intro b member
    obtain ⟨j, early, rfl⟩ := List.mem_take_iff_getElem.mp member
    exact others j _ (by omega) (List.getElem?_eq_getElem _)
  have after : (as.drop (i + 1)).flatMap f = [] := by
    rw [List.flatMap_eq_nil_iff]
    intro b member
    obtain ⟨j, late, rfl⟩ := List.mem_drop_iff_getElem.mp member
    exact others _ _ (by omega) (List.getElem?_eq_getElem _)
  conv_lhs => rw [whole, List.flatMap_append, List.flatMap_cons, before, after, List.nil_append, List.append_nil]

namespace Shape

/-- Below its header an actor has nothing but the lifeline. -/
theorem bare_of_ofActor (below : a.slot.bottom < y) (member : s ∈ ofActor bottom a)
    (written : ch ∈ s.charsAt width x y) : Bare ch := by
  have drawn := mem_palette_of_mem_charsAt written
  simp only [ofActor, List.mem_cons, List.not_mem_nil, or_false] at member
  rcases member with rfl | rfl | rfl
  · exact bare_of_frame drawn
  · rw [Slot.bottom] at below
    rw [charsAt_of_level rfl (by omega)] at written
    cases written
  · exact .inr (List.mem_singleton.mp drawn ▸ rfl)

theorem bare_of_ofActivation (member : s ∈ ofActivation boxReach mid first last)
    (written : ch ∈ s.charsAt width x y) : Bare ch := by
  have drawn := mem_palette_of_mem_charsAt written
  rw [ofActivation, List.mem_append, List.mem_singleton] at member
  rcases member with erased | rfl
  · split at erased
    · rw [List.mem_singleton.mp erased] at drawn
      exact .inl (List.mem_singleton.mp drawn)
    · cases erased
  · exact bare_of_frame drawn

theorem level_ofLabel {l : Label} : ∀ s ∈ ofLabel y l, s.level? = some y := by
  rw [ofLabel]
  split
  · exact List.forall_mem_nil _
  · exact List.forall_mem_singleton.mpr rfl

/-- A label writes its text, also where that is empty and not drawn at all. -/
theorem charsAt_ofLabel (l : Label) :
    (ofLabel y l).flatMap (·.charsAt width x y) = (text l.column y l.text).charsAt width x y := by
  rw [ofLabel]
  split
  · rename_i empty
    rw [List.isEmpty_iff.mp empty, List.flatMap_nil, charsAt, footprint, List.take_nil]
    rfl
  · rw [List.flatMap_singleton]

theorem charsAt_ofLabel_of_ne (l : Label) (off : y ≠ row) : (ofLabel row l).flatMap (·.charsAt width x y) = [] := by
  rw [List.flatMap_eq_nil_iff]
  exact fun s member => charsAt_of_level (level_ofLabel s member) off

/-- The characters that bars, corners and heads are made of. -/
def pieceChars : Text := ['─', '═', '┐', '┘', '╕', '╛', '▶', '◀']

/-- A piece of a bar or a loop: it lies in one row, left of a column. -/
inductive Piece (row stop : Nat) : Shape → Prop where
  | dot {column : Nat} {char : Char} (left : column < stop) (known : char ∈ pieceChars) :
    Piece row stop (dot column row char)
  | across {x0 x1 : Nat} (left : max x0 x1 < stop) : Piece row stop (across x0 x1 row)
  | heavy {x0 x1 : Nat} (left : max x0 x1 < stop) : Piece row stop (heavy x0 x1 row)

namespace Piece

variable {stop : Nat}

theorem level (piece : Piece row stop s) : s.level? = some row := by
  cases piece <;> rfl

theorem known (piece : Piece row stop s) : ∀ ch ∈ s.palette, ch ∈ pieceChars := by
  cases piece with
  | dot _ known => exact List.forall_mem_singleton.mpr known
  | across | heavy => exact List.forall_mem_singleton.mpr (by decide)

theorem charsAt_eq_nil (piece : Piece row stop s) (right : stop ≤ x) : s.charsAt width x row = [] := by
  refine Spot.charsAt_eq_nil fun spot member here => ?_
  cases piece with
  | dot left _ =>
    rw [List.mem_singleton.mp member] at here
    exact absurd here (by dsimp only; omega)
  | across left | heavy left =>
    have inside := mem_between.mp (mem_row member).1
    omega

end Piece

private theorem pieces_ofBar (boxReach : Nat) (p : PlacedMessage) : ∃ pieces,
    ofBar boxReach p = pieces ++ ofLabel (p.row - 1)
      (.ofBar boxReach (min p.source p.target) (max p.source p.target) p.message.label) ∧
      ∀ s ∈ pieces, ∃ stop, Piece p.row stop s := by
  refine ⟨_, rfl, List.forall_mem_append.mpr ⟨?_, ?_⟩⟩
  · cases p.message.arrow.weight with
    | thin => exact List.forall_mem_singleton.mpr ⟨_, .across (Nat.lt_succ_self _)⟩
    | thick =>
      simp only
      split
      · refine List.forall_mem_singleton.mpr ?_
        split
        · exact ⟨_, .heavy (Nat.lt_succ_self _)⟩
        · exact ⟨_, .heavy (Nat.lt_succ_self _)⟩
      · exact List.forall_mem_nil _
  · refine List.forall_mem_singleton.mpr ⟨_, .dot (Nat.lt_succ_self _) ?_⟩
    cases p.rightward <;> decide

private theorem pieces_ofLoop (boxReach : Nat) (p : PlacedMessage) : ∃ pieces,
    ofLoop boxReach p = pieces ++ ofLabel (p.row - 1) (Loop.ofMid boxReach p.source p.next? p.message.label).label ∧
      ∀ s ∈ pieces, (∃ stop, Piece p.row stop s) ∨
        Piece (p.row - 1) (Loop.ofMid boxReach p.source p.next? p.message.label).label.column s := by
  have turns : (Loop.ofMid boxReach p.source p.next? p.message.label).start <
      (Loop.ofMid boxReach p.source p.next? p.message.label).corner := Loop.start_lt_corner
  have label : (Loop.ofMid boxReach p.source p.next? p.message.label).label.column =
      (Loop.ofMid boxReach p.source p.next? p.message.label).corner + Measure.labelPad + 1 := rfl
  rw [ofLoop]
  generalize Loop.ofMid boxReach p.source p.next? p.message.label = l at turns label ⊢
  refine ⟨_, rfl, List.forall_mem_append.mpr ⟨?_, ?_⟩⟩
  · cases p.message.arrow.weight with
    | thin =>
      simp only [List.forall_mem_cons]
      refine ⟨.inr (.across (by omega)), .inl ⟨_, .across (Nat.lt_succ_self _)⟩,
        .inr (.dot (by omega) (by decide)), .inl ⟨_, .dot (Nat.lt_succ_self _) (by decide)⟩, ?_⟩
      exact List.forall_mem_nil _
    | thick =>
      refine List.forall_mem_append.mpr ⟨?_, ?_⟩
      · split
        · simp only [List.forall_mem_cons]
          refine ⟨.inr (.heavy (by omega)), .inl ⟨_, .heavy (Nat.lt_succ_self _)⟩, ?_⟩
          exact List.forall_mem_nil _
        · exact List.forall_mem_nil _
      · simp only [List.forall_mem_cons]
        refine ⟨.inr (.dot (by omega) (by decide)), .inl ⟨_, .dot (Nat.lt_succ_self _) (by decide)⟩, ?_⟩
        exact List.forall_mem_nil _
  · rw [List.forall_mem_singleton]
    cases p.rightward with
    | true => exact .inr (.dot (by omega) (by decide))
    | false => exact .inl ⟨_, .dot (Nat.lt_succ_self _) (by decide)⟩

/-- A message is drawn as the pieces of its bar or its loop and then its label.
The pieces in the label's row lie left of the label. -/
theorem ofMessage_eq (boxReach : Nat) (p : PlacedMessage) : ∃ pieces,
    ofMessage boxReach p = pieces ++ ofLabel (p.row - 1) (p.label boxReach) ∧
      ∀ s ∈ pieces, (∃ stop, Piece p.row stop s) ∨ Piece (p.row - 1) (p.label boxReach).column s := by
  rw [ofMessage, PlacedMessage.label]
  split
  · exact pieces_ofLoop boxReach p
  · obtain ⟨pieces, parts, each⟩ := pieces_ofBar boxReach p
    exact ⟨pieces, parts, fun s member => .inl (each s member)⟩

theorem level_ofMessage : ∀ s ∈ ofMessage boxReach p, s.level? = some p.row ∨ s.level? = some (p.row - 1) := by
  obtain ⟨pieces, parts, each⟩ := ofMessage_eq boxReach p
  rw [parts]
  refine List.forall_mem_append.mpr ⟨fun s member => ?_, fun s member => .inr (level_ofLabel s member)⟩
  rcases each s member with ⟨_, piece⟩ | piece
  · exact .inl piece.level
  · exact .inr piece.level

/-- A message writes to its own two rows only. -/
theorem charsAt_ofMessage (off : y ≠ p.row) (above : y ≠ p.row - 1) :
    (ofMessage boxReach p).flatMap (·.charsAt width x y) = [] := by
  rw [List.flatMap_eq_nil_iff]
  intro s member
  rcases level_ofMessage s member with level | level
  · exact charsAt_of_level level off
  · exact charsAt_of_level level above

/-- To the columns of its label a message writes the label and nothing else. -/
theorem charsAt_ofMessage_label {offset : Nat} (under : 1 ≤ p.row)
    (inside : (p.label boxReach).column + offset < width) :
    (ofMessage boxReach p).flatMap (·.charsAt width ((p.label boxReach).column + offset) (p.row - 1)) =
      (p.label boxReach).text[offset]?.toList := by
  obtain ⟨pieces, parts, each⟩ := ofMessage_eq boxReach p
  have clear : pieces.flatMap (·.charsAt width ((p.label boxReach).column + offset) (p.row - 1)) = [] := by
    rw [List.flatMap_eq_nil_iff]
    intro s member
    rcases each s member with ⟨_, piece⟩ | piece
    · exact charsAt_of_level piece.level (by omega)
    · exact piece.charsAt_eq_nil (Nat.le_add_right _ _)
  rw [parts, List.flatMap_append, clear, List.nil_append, charsAt_ofLabel, charsAt_text inside]

end Shape

namespace Picture

theorem place_of_turn (all : placeAll d headerOffset style = .ok placed) (turned : placed[turn]? = some p) :
    ∃ m, d.messages[turn]? = some m ∧ place d.cast (rowOf headerOffset style (turn + 1)) turn m = .ok p := by
  obtain ⟨long, each⟩ := placeAll_eq_ok.mp all
  obtain ⟨insidePlaced, rfl⟩ := List.getElem?_eq_some_iff.mp turned
  have inside : turn < d.messages.length := long ▸ insidePlaced
  exact ⟨_, List.getElem?_eq_getElem inside, each turn inside insidePlaced⟩

theorem row_of_turn (all : placeAll d headerOffset style = .ok placed) (turned : placed[turn]? = some p) :
    p.row = rowOf headerOffset style (turn + 1) := by
  obtain ⟨_, _, done⟩ := place_of_turn all turned
  exact (on_lifelines_of_place done).2.1

theorem row_pos (all : placeAll d headerOffset style = .ok placed) (turned : placed[turn]? = some p) :
    1 ≤ p.row := by
  rw [row_of_turn all turned, rowOf_succ]
  omega

theorem rows_apart (tall : 2 ≤ style.rowHeight) (order : line < later) :
    rowOf headerOffset style line + 2 ≤ rowOf headerOffset style later := by
  have next : rowOf headerOffset style (line + 1) ≤ rowOf headerOffset style later := rowOf_le order
  rw [rowOf_succ] at next
  omega

/-- The messages of other turns write nothing to the rows of a message. -/
theorem charsAt_placed (all : placeAll d headerOffset style = .ok placed) (tall : 2 ≤ style.rowHeight)
    (turned : placed[turn]? = some p) (own : y = p.row ∨ y + 1 = p.row) :
    placed.flatMap (fun q => (Shape.ofMessage boxReach q).flatMap (·.charsAt width x y)) =
      (Shape.ofMessage boxReach p).flatMap (·.charsAt width x y) := by
  have row := row_of_turn all turned
  have others (i : Nat) (q : PlacedMessage) (another : i ≠ turn) (placedToo : placed[i]? = some q) :
      (Shape.ofMessage boxReach q).flatMap (·.charsAt width x y) = [] := by
    have rowToo := row_of_turn all placedToo
    rcases Nat.lt_or_gt_of_ne another with before | after
    · have apart : rowOf headerOffset style (i + 1) + 2 ≤ rowOf headerOffset style (turn + 1) :=
        rows_apart tall (Nat.succ_lt_succ before)
      exact Shape.charsAt_ofMessage (by omega) (by omega)
    · have apart : rowOf headerOffset style (turn + 1) + 2 ≤ rowOf headerOffset style (i + 1) :=
        rows_apart tall (Nat.succ_lt_succ after)
      exact Shape.charsAt_ofMessage (by omega) (by omega)
  exact flatMap_eq_of_others turned others

/-- Everything that is drawn before the messages: headers, lifelines and boxes. -/
def scenery (d : Diagram) (headerOffset : Nat) (style : Style) : List Shape :=
  d.cast.actors.flatMap (Shape.ofActor (rowOf headerOffset style (d.lineCount + 1))) ++
    d.cast.actors.flatMap (activations headerOffset style)

/-- Below the headers the scenery is spaces and strokes. -/
theorem bare_of_scenery (below : ∀ a ∈ d.cast.actors, a.slot.bottom < y) :
    ∀ ch ∈ (scenery d headerOffset style).flatMap (·.charsAt width x y), Bare ch := by
  intro ch written
  obtain ⟨s, drawn, here⟩ := List.mem_flatMap.mp written
  rcases List.mem_append.mp drawn with actor | box
  · obtain ⟨a, member, part⟩ := List.mem_flatMap.mp actor
    exact Shape.bare_of_ofActor (below a member) part here
  · obtain ⟨a, _, part⟩ := List.mem_flatMap.mp box
    obtain ⟨_, _, part⟩ := List.mem_flatMap.mp part
    exact Shape.bare_of_ofActivation part here

/-- The shapes are drawn on a blank canvas as large as it was measured. -/
theorem cell_of_canvas (drew : canvas d headerOffset style placed = .ok c) :
    c.width = canvasWidth d style placed ∧ c.height = canvasHeight d headerOffset style ∧
      ∀ x y, x < c.width → y < c.height → c.cell? x y = some ((({ char := ' ' } : Cell).writeAll
        ((scenery d headerOffset style).flatMap (·.charsAt c.width x y))).writeAll
        (placed.flatMap fun p => (Shape.ofMessage style.boxReach p).flatMap (·.charsAt c.width x y))) := by
  obtain ⟨blank, made, drawn⟩ := Attempt.bind_eq_ok.mp drew
  obtain ⟨blankWidth, blankHeight⟩ := Canvas.size_of_filled made
  obtain ⟨width, height, cells⟩ := Canvas.cell?_drawAll drawn
  refine ⟨width.trans blankWidth, height.trans blankHeight, fun x y wide high => ?_⟩
  rw [width, blankWidth] at wide
  rw [height, blankHeight] at high
  have parts : shapes d headerOffset style placed =
      scenery d headerOffset style ++ placed.flatMap (Shape.ofMessage style.boxReach) := rfl
  rw [cells, Canvas.cell?_filled made wide high, Option.map_some, width, parts, List.flatMap_append,
    Cell.writeAll_append, List.flatMap_assoc]

end Picture

namespace Layout.Arranged

variable (result : Arranged style.measure page d ends arranged outcome) (complete : d.Complete)
  (all : Picture.placeAll arranged outcome.headerOffset style = .ok placed) (tall : 2 ≤ style.rowHeight)
  (drew : Picture.canvas arranged outcome.headerOffset style placed = .ok c)
  (turned : placed[turn]? = some p) (own : y = p.row ∨ y + 1 = p.row)

include result complete all tall drew turned own

/-- Under what a message writes to its rows there is at most a stroke. -/
theorem cell_of_message (wide : x < c.width) : ∃ arms, c.cell? x y =
    some (({ char := ' ', arms } : Cell).writeAll
      ((Shape.ofMessage style.boxReach p).flatMap (·.charsAt c.width x y))) := by
  have row := Picture.row_of_turn all turned
  have first : outcome.headerOffset + 2 ≤ Picture.rowOf outcome.headerOffset style (turn + 1) := by
    simpa [Picture.rowOf] using
      @Picture.rows_apart style outcome.headerOffset 0 (turn + 1) tall (Nat.succ_pos turn)
  have below : ∀ a ∈ arranged.cast.actors, a.slot.bottom < y := by
    intro a member
    have bottom := result.bottom_le_headerOffset member
    omega
  obtain ⟨_, height, cells⟩ := Picture.cell_of_canvas drew
  have high : y < c.height := by
    obtain ⟨_, settled⟩ := result.settled complete all (List.mem_of_getElem? turned)
    obtain ⟨line, _, inside, same⟩ := settled.row
    have last : Picture.rowOf outcome.headerOffset style line <
        Picture.rowOf outcome.headerOffset style (arranged.lineCount + 1) := Picture.rowOf_lt (by omega)
    rw [height, Picture.canvasHeight]
    omega
  obtain ⟨arms, under⟩ := Cell.writeAll_of_bare (Picture.bare_of_scenery below) .none
  exact ⟨arms, by rw [cells x y wide high, under, Picture.charsAt_placed all tall turned own]⟩

/-- The last plain character that a message writes to a position of its rows is
shown there. -/
theorem get_of_last (wide : x < c.width) (plain : Arms.ofChar? ch = none)
    (written : (Shape.ofMessage style.boxReach p).flatMap (·.charsAt c.width x y) = t ++ [ch]) :
    c.get x y = .ok ch := by
  obtain ⟨arms, held⟩ := result.cell_of_message complete all tall drew turned own wide
  rw [written, Cell.writeAll_concat_plain plain] at held
  exact Canvas.get_of_cell held

/-- A plain character in the rows of a message is one that the message wrote. -/
theorem written_of_get (plain : Arms.ofChar? ch = none) (visible : ch ≠ ' ') (shown : c.get x y = .ok ch) :
    ch ∈ (Shape.ofMessage style.boxReach p).flatMap (·.charsAt c.width x y) := by
  obtain ⟨cell, held, shown⟩ := Canvas.cell_of_get shown
  obtain ⟨arms, same⟩ := result.cell_of_message complete all tall drew turned own (Canvas.lt_of_cell? held).1
  rw [held, Option.some.injEq] at same
  have written := Canvas.char_of_shownBy plain shown
  rw [same] at written
  exact written ▸ Cell.char_writeAll_mem.resolve_left fun blank => visible (written.symm.trans blank)

end Layout.Arranged

/-! ### From a message of the text to its rows -/

namespace Picture

/-- The canvas is wide enough for every message. -/
theorem stop_le_width (drew : canvas d headerOffset style placed = .ok c) (member : p ∈ placed) :
    p.stop style.boxReach ≤ c.width := by
  rw [(cell_of_canvas drew).1]
  exact Nat.le_trans (stop_le_stop member) (Nat.le_add_right _ _)

/-- A picture with somebody in it is that of a canvas. -/
theorem canvas_of_paint {picture : Text} (peopled : d.cast.isEmpty = false)
    (all : placeAll d headerOffset style = .ok placed) (painted : paint style headerOffset d = .ok picture) :
    ∃ c, canvas d headerOffset style placed = .ok c ∧ c.picture = picture := by
  simp only [paint, peopled, Bool.false_eq_true, if_false, all] at painted
  obtain ⟨c, drew, same⟩ := Attempt.map_eq_ok.mp painted
  exact ⟨c, Attempt.mapError_eq_ok.mp drew, same⟩

end Picture

namespace Layout.Arranged

variable {m : Message} (result : Arranged measure page d ends arranged outcome)
include result

/-- Where something is sent there is somebody. -/
theorem peopled (complete : d.Complete) (sent : m ∈ d.messages) : arranged.cast.isEmpty = false := by
  have source := (complete.messages m sent).2.1
  rw [← result.names_eq] at source
  obtain ⟨a, member, _⟩ := List.mem_map.mp source
  exact List.isEmpty_eq_false_iff.mpr (List.ne_nil_of_mem member)

theorem placed_of_message (all : Picture.placeAll arranged headerOffset style = .ok placed)
    (message : d.messages[turn]? = some m) :
    ∃ p, placed[turn]? = some p ∧ { p.message with rightward := none } = m := by
  rw [← result.undirected_placed all, List.getElem?_map] at message
  exact Option.map_eq_some_iff.mp message

end Layout.Arranged

end SequenceDiagram
