import SequenceDiagram.Proofs.Picture.MessageRows
import SequenceDiagram.Proofs.Picture.RightEdge

/-! Heads at the receiver. A bar runs between the boxes of its two actors and has
its head right outside the receiver's box; a loop has it where it comes back to
the box, or, told backwards, where it leaves. Nothing covers a head, and there is
no other in its row. -/
namespace SequenceDiagram
open Layout

variable {page : Page} {style : Style} {d arranged : Diagram} {outcome : Outcome} {ends : List Ends}
  {cast : Cast} {m : Message} {e : Ends} {p : PlacedMessage} {placed : List PlacedMessage} {c : Canvas}
  {boxReach headerOffset row index turn width x : Nat}

/-- The column and the character of the head of a bar: right outside the
receiver's box, on the side that the sender is on. -/
def headOf (boxReach sender receiver : Nat) : Nat × Char :=
  if sender < receiver then (receiver - boxReach - 1, '▶') else (receiver + boxReach + 1, '◀')

/-- The character that a bar is made of. -/
def Weight.stroke : Weight → Char
  | thin => '─'
  | thick => '═'

theorem Weight.stroke_ne_head (w : Weight) : ¬(w.stroke = '▶' ∨ w.stroke = '◀') := by
  cases w <;> decide

/-- The row shows a head at the column and none anywhere else. -/
structure Canvas.OnlyHead (c : Canvas) (column row : Nat) (head : Char) : Prop where
  stands : c.get column row = .ok head
  only : ∀ x ch, c.get x row = .ok ch → ch = '▶' ∨ ch = '◀' → x = column

/-- The bar of a message from one lifeline to another: its head, and in all other
columns between the two boxes the bar itself. -/
structure Canvas.ShowsBar (c : Canvas) (boxReach row : Nat) (weight : Weight) (sender receiver : Nat) :
    Prop where
  apart : min sender receiver + 2 * boxReach + 2 < max sender receiver
  head : c.OnlyHead (headOf boxReach sender receiver).1 row (headOf boxReach sender receiver).2
  bar : ∀ x, min sender receiver + boxReach < x → x + boxReach < max sender receiver →
    x ≠ (headOf boxReach sender receiver).1 →
      match weight with
      | .thick => c.get x row = .ok '═'
      | .thin => (c.armsAt x row).left = true ∧ (c.armsAt x row).right = true

/-- The head of a loop at a lifeline: in the lower row where the loop comes back,
or in the upper row where a backward one leaves, and then none in the lower row. -/
structure Canvas.ShowsLoopHead (c : Canvas) (boxReach row : Nat) (backward : Bool) (mid : Nat) : Prop where
  forward : backward = false → c.get (mid + boxReach + 1) row = .ok '◀'
  backward : backward = true → c.get (mid + boxReach + 1) (row - 1) = .ok '▶' ∧
    ∀ x ch, c.get x row = .ok ch → ch ≠ '▶' ∧ ch ≠ '◀'

namespace Picture

theorem place_eq_ok (done : place cast row index m = .ok p) : ∃ source target,
    cast.find? m.source = some source ∧ cast.find? m.target = some target ∧ p.message = m ∧
      p.source = source.mid ∧ p.target = target.mid ∧ m.rightward = some p.rightward := by
  rw [place] at done
  split at done
  · cases done
  · cases done
  · cases done
  · rename_i rightward source target directed sourceFound targetFound
    cases done
    exact ⟨source, target, sourceFound, targetFound, rfl, rfl, rfl, directed⟩

end Picture

theorem ofChar?_headOf {sender receiver : Nat} : Arms.ofChar? (headOf boxReach sender receiver).2 = none := by
  rw [headOf]
  split <;> rfl

namespace PlacedMessage

/-- The lifeline that the message runs from. -/
def sender (p : PlacedMessage) : Nat := if p.rightward then min p.source p.target else max p.source p.target

/-- The lifeline that the message runs to. -/
def receiver (p : PlacedMessage) : Nat := if p.rightward then max p.source p.target else min p.source p.target

theorem min_ends (p : PlacedMessage) : min p.sender p.receiver = min p.source p.target := by
  rw [sender, receiver]
  cases p.rightward <;> simp only [Bool.false_eq_true, if_true, if_false] <;> omega

theorem max_ends (p : PlacedMessage) : max p.sender p.receiver = max p.source p.target := by
  rw [sender, receiver]
  cases p.rightward <;> simp only [Bool.false_eq_true, if_true, if_false] <;> omega

theorem max_lt_stop (boxReach : Nat) (p : PlacedMessage) (other : p.message.isSelf = false) :
    max p.source p.target < p.stop boxReach := by
  simp only [stop, other, Bool.false_eq_true, if_false]
  omega

theorem corner_lt_stop (boxReach : Nat) (p : PlacedMessage) (self : p.message.isSelf = true) :
    (Loop.ofMid boxReach p.source p.next? p.message.label).corner < p.stop boxReach := by
  simp only [stop, self, if_true]
  omega

theorem headOf_ends (boxReach : Nat) (p : PlacedMessage) (apart : p.source ≠ p.target) :
    headOf boxReach p.sender p.receiver =
      if p.rightward then (max p.source p.target - boxReach - 1, '▶')
      else (min p.source p.target + boxReach + 1, '◀') := by
  rw [headOf, sender, receiver]
  cases p.rightward with
  | true => exact if_pos (by simp only [if_true]; omega)
  | false => exact if_neg (by simp only [Bool.false_eq_true, if_false]; omega)

end PlacedMessage

/-- A loop that is told backwards has no head in its lower row. -/
theorem PlacedMessage.no_head_under_loop (self : p.message.isSelf = true) (under : 1 ≤ p.row)
    (backward : p.rightward = true) {ch : Char}
    (written : ch ∈ (Shape.ofMessage boxReach p).flatMap (·.charsAt width x p.row)) :
    ch ≠ '▶' ∧ ch ≠ '◀' := by
  have message : Shape.ofMessage boxReach p = Shape.ofLoop boxReach p := if_pos self
  obtain ⟨s, drawn, here⟩ := List.mem_flatMap.mp written
  rw [message, Shape.ofLoop, List.mem_append, List.mem_append, List.mem_singleton, backward, if_pos rfl] at drawn
  rcases drawn with (bar | head) | label
  · have others : ∀ ch ∈ ['─', '┐', '┘', '═', '╕', '╛'], ch ≠ '▶' ∧ ch ≠ '◀' := by simp
    have drawn := Shape.mem_palette_of_mem_charsAt here
    refine others ch ?_
    cases weight : p.message.arrow.weight with
    | thin =>
      simp only [weight, List.mem_cons, List.not_mem_nil, or_false] at bar
      rcases bar with rfl | rfl | rfl | rfl <;> simp [List.mem_singleton.mp drawn]
    | thick =>
      simp only [weight, List.mem_append, List.mem_cons, List.not_mem_nil, or_false] at bar
      rcases bar with bar | rfl | rfl
      · split at bar
        · simp only [List.mem_cons, List.not_mem_nil, or_false] at bar
          rcases bar with rfl | rfl <;> simp [List.mem_singleton.mp drawn]
        · cases bar
      · simp [List.mem_singleton.mp drawn]
      · simp [List.mem_singleton.mp drawn]
  · rw [head, Shape.charsAt_of_level rfl (by omega)] at here
    cases here
  · rw [Shape.charsAt_of_level (Shape.level_ofLabel s label) (by omega)] at here
    cases here

namespace PlacedMessage.Settled

variable (settled : p.Settled style.measure style headerOffset d e)
include settled

/-- The lifelines of two actors stand in the order of the actors. -/
theorem source_lt_iff (side : SideBySide page.gutter d.cast.actors) :
    p.source < p.target ↔ e.source < e.target := by
  rcases Nat.lt_trichotomy e.source e.target with before | same | after
  · have other : p.message.isSelf = false := by simpa [settled.joins.same_place_iff] using Nat.ne_of_lt before
    have room := settled.bar_room side other
    have order := (settled.order side).1
    rw [Nat.min_eq_left (Nat.le_of_lt before), ← settled.source] at order
    omega
  · rw [settled.source, settled.target, same]
    omega
  · have other : p.message.isSelf = false := by simpa [settled.joins.same_place_iff] using Nat.ne_of_gt after
    have room := settled.bar_room side other
    have order := (settled.order side).1
    rw [Nat.min_eq_right (Nat.le_of_lt after), ← settled.target] at order
    omega

/-- A bar begins at the edge of the sender's box and ends a column before the
receiver's. -/
theorem bar_eq (side : SideBySide page.gutter d.cast.actors) (other : p.message.isSelf = false) :
    Bar.between style.boxReach (min p.source p.target) (max p.source p.target) p.rightward =
      if p.rightward then
        { start := min p.source p.target + style.boxReach,
          stop := max p.source p.target - style.boxReach - 1, rightward := true }
      else
        { start := min p.source p.target + style.boxReach + 1,
          stop := max p.source p.target - style.boxReach, rightward := false } := by
  have room := settled.bar_room side other
  have apart : 2 * style.boxReach + 1 < max p.source p.target - min p.source p.target := by omega
  simp only [Bar.between, apart, if_true]
  cases p.rightward <;> simp

/-- To the row of a bar a message writes the bar, which covers all columns
between the boxes, and then its head. -/
theorem charsAt_bar (side : SideBySide page.gutter d.cast.actors) (other : p.message.isSelf = false)
    (under : 1 ≤ p.row) (width x : Nat) : ∃ first last,
    first ≤ min p.source p.target + style.boxReach + 1 ∧ max p.source p.target ≤ last + style.boxReach + 1 ∧
    (Shape.ofMessage style.boxReach p).flatMap (·.charsAt width x p.row) =
      (if first ≤ x ∧ x ≤ last then [p.message.arrow.weight.stroke] else []) ++
      (if (headOf style.boxReach p.sender p.receiver).1 = x then
        [(headOf style.boxReach p.sender p.receiver).2] else []) := by
  have room := settled.bar_room side other
  have above : p.row ≠ p.row - 1 := by omega
  have message : Shape.ofMessage style.boxReach p = Shape.ofBar style.boxReach p := if_neg (by simp [other])
  simp only [message, Shape.ofBar, List.flatMap_append, Shape.charsAt_ofLabel_of_ne _ above, List.append_nil,
    settled.bar_eq side other, List.flatMap_singleton, Shape.charsAt_dot, p.headOf_ends style.boxReach (by omega)]
  generalize min p.source p.target = left at room ⊢
  generalize max p.source p.target = right at room ⊢
  cases p.rightward <;> cases p.message.arrow.weight
  · refine ⟨left + style.boxReach + 1, right - style.boxReach, by omega, by omega, ?_⟩
    simp only [Bool.false_eq_true, if_false, List.flatMap_singleton]
    rw [Shape.charsAt_across (by omega)]
    rfl
  · refine ⟨left + style.boxReach + 1, right - style.boxReach - 1, by omega, by omega, ?_⟩
    simp only [Bool.false_eq_true, if_false]
    rw [if_pos (by omega), List.flatMap_singleton, Shape.charsAt_heavy (by omega)]
    rfl
  · refine ⟨left + style.boxReach, right - style.boxReach - 1, by omega, by omega, ?_⟩
    simp only [if_true, List.flatMap_singleton]
    rw [Shape.charsAt_across (by omega)]
    rfl
  · refine ⟨left + style.boxReach + 1, right - style.boxReach - 1, by omega, by omega, ?_⟩
    simp only [if_true]
    rw [if_pos (by omega), List.flatMap_singleton, Shape.charsAt_heavy (by omega)]
    rfl

/-- The last that a message writes to the place of a loop's head is the head. -/
theorem charsAt_loop_head (self : p.message.isSelf = true) (under : 1 ≤ p.row) (width : Nat) : ∃ before : Text,
    (Shape.ofMessage style.boxReach p).flatMap
        (·.charsAt width (p.source + style.boxReach + 1) (if p.rightward then p.row - 1 else p.row)) =
      before ++ [Shape.head p.rightward] := by
  have message : Shape.ofMessage style.boxReach p = Shape.ofLoop style.boxReach p := if_pos self
  have label :
      (Shape.ofLabel (p.row - 1) { column := p.source + style.boxReach + 5, text := p.message.label }).flatMap
        (·.charsAt width (p.source + style.boxReach + 1) (if p.rightward then p.row - 1 else p.row)) = [] := by
    cases p.rightward with
    | true => exact (Shape.charsAt_ofLabel _).trans (Shape.charsAt_text_of_lt (by dsimp only; omega))
    | false => exact Shape.charsAt_ofLabel_of_ne _ (by simp only [Bool.false_eq_true, if_false]; omega)
  simp only [message, Shape.ofLoop, settled.loop_eq self, List.flatMap_append, label, List.append_nil,
    List.flatMap_singleton, Shape.charsAt_dot, if_true]
  exact ⟨_, rfl⟩

end PlacedMessage.Settled

namespace Layout.Arranged

variable (result : Arranged style.measure page d ends arranged outcome) (complete : d.Complete)
  (all : Picture.placeAll arranged outcome.headerOffset style = .ok placed) (turned : placed[turn]? = some p)

include result complete all turned

/-- A message runs towards its target, or, told backwards, towards its source. -/
theorem direction : p.rightward = xor (decide (p.source < p.target)) p.message.arrow.backward := by
  obtain ⟨e, settled⟩ := result.settled complete all (List.mem_of_getElem? turned)
  obtain ⟨m, message, done⟩ := Picture.place_of_turn all turned
  obtain ⟨_, _, _, _, same, _, _, directed⟩ := Picture.place_eq_ok done
  obtain ⟨inside, found⟩ := List.getElem?_eq_some_iff.mp message
  have before : turn < d.messages.length := result.length_messages ▸ inside
  obtain ⟨other, place, _, joins⟩ := result.places_at (List.getElem?_eq_getElem before)
  obtain ⟨insideEnds, rfl⟩ := List.getElem?_eq_some_iff.mp place
  have resolved : m = d.messages[turn].resolve ends[turn] := by
    rw [← found]
    simp only [result.messages, List.getElem_zipWith]
  have joined : p.message.Joins arranged.cast ends[turn] := by
    rw [same, resolved]
    have joined := result.joins_iff.mpr joins
    exact ⟨joined.source, joined.target⟩
  cases settled.joins.unique joined
  have order := settled.source_lt_iff result.side_by_side
  rw [resolved] at directed same
  rw [same, ← Option.some_inj, ← directed]
  simp only [Message.resolve, order]

theorem sender_receiver (other : p.message.isSelf = false) :
    p.sender = (if p.message.arrow.backward then p.target else p.source) ∧
      p.receiver = if p.message.arrow.backward then p.source else p.target := by
  obtain ⟨e, settled⟩ := result.settled complete all (List.mem_of_getElem? turned)
  have room := settled.bar_room result.side_by_side other
  rw [PlacedMessage.sender, PlacedMessage.receiver, result.direction complete all turned]
  by_cases order : p.source < p.target
  · rw [Nat.min_eq_left (by omega), Nat.max_eq_right (by omega)]
    cases p.message.arrow.backward <;> simp [order]
  · rw [Nat.min_eq_right (by omega), Nat.max_eq_left (by omega)]
    cases p.message.arrow.backward <;> simp [order]

theorem rightward_of_loop (self : p.message.isSelf = true) : p.rightward = p.message.arrow.backward := by
  obtain ⟨e, settled⟩ := result.settled complete all (List.mem_of_getElem? turned)
  have same : e.source = e.target := settled.joins.same_place_iff.mpr self
  have level : ¬p.source < p.target := by
    rw [settled.source_lt_iff result.side_by_side, same]
    exact Nat.lt_irrefl _
  rw [result.direction complete all turned, decide_eq_false level, Bool.false_xor]

variable (tall : 2 ≤ style.rowHeight)
  (drew : Picture.canvas arranged outcome.headerOffset style placed = .ok c)
include tall drew

/-- Where a message writes nothing but its bar, a heavy bar covers what is under it
and a thin one adds its arms. -/
theorem shown_in_bar (wide : x < c.width) (written : (Shape.ofMessage style.boxReach p).flatMap
      (·.charsAt c.width x p.row) = [p.message.arrow.weight.stroke]) :
    match p.message.arrow.weight with
    | .thick => c.get x p.row = .ok '═'
    | .thin => (c.armsAt x p.row).left = true ∧ (c.armsAt x p.row).right = true := by
  cases heavy : p.message.arrow.weight with
  | thick =>
    rw [heavy] at written
    exact result.get_of_last complete all tall drew turned (.inl rfl) wide (t := []) rfl written
  | thin =>
    obtain ⟨arms, cell⟩ := result.cell_of_message complete all tall drew turned (.inl rfl) wide
    have joined : c.armsAt x p.row = arms.union { left := true, right := true } := by
      rw [Canvas.armsAt, cell, written, heavy]
      rfl
    simp [joined, Arms.union]

theorem shows_bar (other : p.message.isSelf = false) :
    c.ShowsBar style.boxReach p.row p.message.arrow.weight p.sender p.receiver := by
  obtain ⟨e, settled⟩ := result.settled complete all (List.mem_of_getElem? turned)
  have room := settled.bar_room result.side_by_side other
  have under := Picture.row_pos all turned
  have held := Nat.lt_of_lt_of_le (p.max_lt_stop style.boxReach other)
    (Picture.stop_le_width drew (List.mem_of_getElem? turned))
  have column := p.headOf_ends style.boxReach (by omega)
  have bar (x : Nat) := settled.charsAt_bar result.side_by_side other under c.width x
  refine ⟨by rw [p.min_ends, p.max_ends]; omega, ⟨?_, ?_⟩, ?_⟩
  · obtain ⟨_, _, _, _, written⟩ := bar (headOf style.boxReach p.sender p.receiver).1
    rw [if_pos rfl] at written
    refine result.get_of_last complete all tall drew turned (.inl rfl) ?_ ofChar?_headOf written
    rw [column]
    split <;> simp only <;> omega
  · intro x ch shown isHead
    obtain ⟨_, _, _, _, written⟩ := bar x
    by_contra away
    have visible : Arms.ofChar? ch = none ∧ ch ≠ ' ' := by rcases isHead with rfl | rfl <;> decide
    have drawn := result.written_of_get complete all tall drew turned (.inl rfl) visible.1 visible.2 shown
    rw [written, if_neg (Ne.symm away), List.append_nil] at drawn
    split at drawn
    · rw [List.mem_singleton.mp drawn] at isHead
      exact p.message.arrow.weight.stroke_ne_head isHead
    · cases drawn
  · intro x afterLeft beforeRight away
    rw [p.min_ends] at afterLeft
    rw [p.max_ends] at beforeRight
    obtain ⟨first, last, low, high, written⟩ := bar x
    rw [if_pos ⟨by omega, by omega⟩, if_neg away.symm, List.append_nil] at written
    exact result.shown_in_bar complete all turned tall drew (by omega) written

theorem shows_loop_head (self : p.message.isSelf = true) :
    c.ShowsLoopHead style.boxReach p.row p.rightward p.source := by
  obtain ⟨e, settled⟩ := result.settled complete all (List.mem_of_getElem? turned)
  have under := Picture.row_pos all turned
  have held := Nat.lt_of_lt_of_le (p.corner_lt_stop style.boxReach self)
    (Picture.stop_le_width drew (List.mem_of_getElem? turned))
  rw [settled.loop_eq self] at held
  obtain ⟨before, written⟩ := settled.charsAt_loop_head self under c.width
  constructor
  · intro forward
    rw [forward] at written
    exact result.get_of_last complete all tall drew turned (.inl rfl) (by dsimp only at held; omega) rfl written
  · intro backward
    rw [backward] at written
    refine ⟨result.get_of_last complete all tall drew turned (.inr (by omega)) (by dsimp only at held; omega) rfl
      written, ?_⟩
    intro x ch shown
    have lower {ch : Char} (plain : Arms.ofChar? ch = none) (visible : ch ≠ ' ') (shown : c.get x p.row = .ok ch) :=
      p.no_head_under_loop self under backward
        (result.written_of_get complete all tall drew turned (.inl rfl) plain visible shown)
    constructor
    · rintro rfl
      exact (lower rfl (by decide) shown).1 rfl
    · rintro rfl
      exact (lower rfl (by decide) shown).2 rfl

end Layout.Arranged

/-- The head of every message stands at its receiver, in every picture that is painted
before a number can no longer be counted. -/
theorem heads_stand_at_receivers (n : Counting) (page : Page) (style : Style) (text : Text) (d arranged : Diagram)
    (outcome : Outcome) (picture : Text) (tall : 2 ≤ style.rowHeight) (parsed : Diagram.parse text = .ok d)
    (done : Layout.arrange? n style.measure page d = some (.ok (arranged, outcome)))
    (painted : Picture.paint? n style outcome.headerOffset arranged = some (.ok picture)) :
    ∀ turn m, d.messages[turn]? = some m → ∃ canvas source target,
      Picture.canvas? n style outcome.headerOffset arranged = some (.ok canvas) ∧ picture = canvas.picture ∧
      arranged.cast.find? m.source = some source ∧ arranged.cast.find? m.target = some target ∧
      (m.isSelf = false → canvas.ShowsBar style.boxReach (outcome.headerOffset + (turn + 1) * style.rowHeight)
        m.arrow.weight (if m.arrow.backward then target.mid else source.mid)
        (if m.arrow.backward then source.mid else target.mid)) ∧
      (m.isSelf = true → canvas.ShowsLoopHead style.boxReach
        (outcome.headerOffset + (turn + 1) * style.rowHeight) m.arrow.backward source.mid) := by
  intro turn m message
  obtain ⟨complete, ends, _, _, placed, arranges, result, all⟩ := stages_of_parse style.measure page style parsed
  cases arranges.symm.trans (arrange?_yields _ done).symm
  have peopled := result.peopled complete (List.mem_of_getElem? message)
  obtain ⟨canvas, counted, drawn⟩ := Picture.canvas?_of_paint? peopled painted
  have drew := Picture.canvas_of_canvas? all counted
  obtain ⟨p, turned, rfl⟩ := result.placed_of_message all message
  obtain ⟨_, _, located⟩ := Picture.place_of_turn all turned
  obtain ⟨source, target, sourceFound, targetFound, same, sourceMid, targetMid, _⟩ := Picture.place_eq_ok located
  have row : p.row = outcome.headerOffset + (turn + 1) * style.rowHeight := by
    rw [Picture.row_of_turn all turned, Picture.rowOf, Nat.max_eq_left (by omega)]
  rw [← same] at sourceFound targetFound
  refine ⟨canvas, source, target, counted, drawn.symm, sourceFound, targetFound, ?_, ?_⟩
  · intro other
    obtain ⟨sender, receiver⟩ := result.sender_receiver complete all turned other
    rw [← row, ← sourceMid, ← targetMid, ← sender, ← receiver]
    exact result.shows_bar complete all turned tall drew other
  · intro self
    rw [← row, ← sourceMid, ← result.rightward_of_loop complete all turned self]
    exact result.shows_loop_head complete all turned tall drew self

/-- A bar across a lifeline, the same told from the other end, and a loop told both
ways. -/
def bothWays : Text := "A -> C: over\nA <= C: back\nB => B: round\nB <- B: again".toList

theorem heads_stand_at_receivers_both_ways :
    let style : Style := { rowHeight := 3, boxReach := 2 }
    ∃ d arranged outcome picture, Diagram.parse bothWays = .ok d ∧ 2 ≤ style.rowHeight ∧
      Layout.arrange? .words style.measure (.terminal 80) d = some (.ok (arranged, outcome)) ∧
      Picture.paint? .words style outcome.headerOffset arranged = some (.ok picture) ∧
      ∃ (canvas : Canvas) (a c : Actor), picture = canvas.picture ∧ arranged.cast.find? ['A'] = some a ∧
        arranged.cast.find? ['C'] = some c ∧ canvas.ShowsBar 2 (outcome.headerOffset + 6) .thick c.mid a.mid := by
  intro style
  have ran : ((Diagram.parse bothWays).toOption.bind fun d =>
      (Layout.arrange? .words style.measure (.terminal 80) d).bind fun layout => layout.toOption.bind fun layout =>
        (Picture.paint? .words style layout.2.headerOffset layout.1).bind fun picture => picture.toOption.bind fun _ =>
          d.messages[1]?) =
      some { arrow := ⟨.thick, true⟩, source := ['A'], target := ['C'], label := "back".toList } := by
    decide +kernel
  simp only [Option.bind_eq_some_iff, Attempt.toOption_eq_some] at ran
  obtain ⟨d, parsed, _, done, ⟨arranged, outcome⟩, rfl, _, painted, picture, rfl, message⟩ := ran
  obtain ⟨canvas, a, c, _, drawn, first, last, bar, _⟩ :=
    heads_stand_at_receivers .words (.terminal 80) style bothWays d arranged outcome picture (by decide) parsed done
      painted 1 _ message
  exact ⟨d, arranged, outcome, picture, parsed, by decide, done, painted, canvas, a, c, drawn, first, last, bar rfl⟩

end SequenceDiagram
