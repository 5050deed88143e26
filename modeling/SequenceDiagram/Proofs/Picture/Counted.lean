import Mathlib.Data.List.Forall2
import SequenceDiagram.Picture.Counted
import SequenceDiagram.Proofs.Attempt
import SequenceDiagram.Proofs.Counting

/-! The painter as it counts. It may end before it is done, and where it does not it
ends with the picture of the painter, or with the same refusal. Without an end to the
numbers the differences alone could end it: for messages below the first row, each bar
between two columns, none of them does. -/
namespace SequenceDiagram

variable {n : Counting} {style : Style} {d : Diagram} {p : PlacedMessage} {placed : List PlacedMessage} {a : Actor}
  {t : Text} {l : Label} {c : Canvas} {cast : Cast} {m : Message} {next? : Option Nat} {index : Nat}
  {boxReach left right next room bottom row first last mid headerOffset : Nat} {rightward : Bool}

/-! ### Labels, bars and loops -/

theorem Text.fit_of_length_le (short : t.length ≤ room) : t.fit room = t := if_pos short

theorem Text.length_fit_le : (t.fit room).length ≤ room := by
  rw [fit]
  split
  · assumption
  · split
    · exact Nat.zero_le _
    · rw [List.length_append, List.length_take, List.length_singleton]
      omega

theorem Text.fit?_eq : t.fit? room = some (t.fit room) := by
  rw [fit?, fit]
  split
  · rfl
  · split
    · rfl
    · rename_i positive
      rw [minus?_eq (Nat.one_le_iff_ne_zero.mpr positive)]
      rfl

/-- The label of a bar can be counted where the columns can be that its room is the
difference of. -/
theorem Label.ofBar?_eq_some_iff : ofBar? n boxReach left right t = some l ↔
    (n.holds (left + 2 * boxReach + 4) = true ∧ n.holds (right + 1) = true) ∧ ofBar boxReach left right t = l := by
  have past : left + (boxReach + 1 + 1) + (boxReach + 1 + 1) = left + 2 * boxReach + 4 := by omega
  simp only [ofBar?, Option.bind_eq_bind, Option.bind_eq_some_iff, Counting.count?_eq_some_iff, Text.fit?_eq,
    Option.some.injEq, Option.pure_def, Measure.labelPad]
  constructor
  · rintro ⟨_, ⟨-, rfl⟩, _, ⟨-, rfl⟩, _, ⟨least, rfl⟩, _, ⟨behind, rfl⟩, _, rfl, _, rest⟩
    rw [minus?_eq Text.length_fit_le] at rest
    obtain ⟨spared, _, ⟨-, rfl⟩, rfl⟩ := rest
    cases spared
    exact ⟨⟨past ▸ least, behind⟩, rfl⟩
  · rintro ⟨⟨least, behind⟩, rfl⟩
    have short := @Text.length_fit_le t (right + 1 - (left + (boxReach + 1 + 1) + (boxReach + 1 + 1)))
    refine ⟨_, ⟨Counting.holds_of_le (by omega) least, rfl⟩, _, ⟨Counting.holds_of_le (by omega) least, rfl⟩, _,
      ⟨past.symm ▸ least, rfl⟩, _, ⟨behind, rfl⟩, _, rfl, _, minus?_eq short, _, ⟨?_, rfl⟩, rfl⟩
    rcases Nat.le_total (right + 1) (left + (boxReach + 1 + 1) + (boxReach + 1 + 1)) with none | some
    · exact Counting.holds_of_le (by omega) least
    · exact Counting.holds_of_le (by omega) behind

theorem Label.ofBar?_yields : Yields (ofBar? n boxReach left right t) (ofBar boxReach left right t) :=
  fun _ done => (ofBar?_eq_some_iff.mp done).2.symm

theorem Label.ofBar?_endless : ofBar? .endless boxReach left right t = some (ofBar boxReach left right t) :=
  ofBar?_eq_some_iff.mpr ⟨⟨rfl, rfl⟩, rfl⟩

namespace Loop

variable {loop : Loop}

/-- Every loop is at least a column long. -/
theorem start_lt_corner : (ofMid boxReach mid next? t).start < (ofMid boxReach mid next? t).corner := by
  simp only [ofMid, Measure.loopReach]
  split <;> omega

/-- A loop beside another lifeline can be counted where the columns can be that the room
of its label is the difference of. -/
theorem ofMid?_eq_some_iff : ofMid? n boxReach mid (some next) t = some loop ↔
    (n.holds ((ofMid boxReach mid (some next) t).corner + boxReach + 4) = true ∧ n.holds (next + 1) = true) ∧
      ofMid boxReach mid (some next) t = loop := by
  simp only [ofMid?, corner?, room?, Option.bind_eq_bind, Option.bind_eq_some_iff, Counting.count?_eq_some_iff,
    Text.fit?_eq, Option.some.injEq, Option.pure_def, ofMid, Measure.labelPad, Measure.loopReach]
  constructor
  · rintro ⟨_, ⟨-, rfl⟩, _, ⟨_, ⟨-, rfl⟩, _, ⟨-, rfl⟩, _, ⟨-, rfl⟩, rfl⟩, _, ⟨-, rfl⟩, _,
      ⟨_, ⟨behind, rfl⟩, _, ⟨furthest, rfl⟩, rfl⟩, _, rfl, rfl⟩
    exact ⟨⟨Counting.holds_of_le (by omega) furthest, behind⟩, rfl⟩
  · rintro ⟨⟨furthest, behind⟩, rfl⟩
    have part {k : Nat} (le : k ≤ max (min (mid + boxReach + 3) (next - (boxReach + 1))) (mid + boxReach + 1) +
        boxReach + 4) : n.holds k = true := Counting.holds_of_le le furthest
    exact ⟨_, ⟨part (by omega), rfl⟩, _, ⟨_, ⟨part (by omega), rfl⟩, _, ⟨part (by omega), rfl⟩, _,
      ⟨part (by omega), rfl⟩, rfl⟩, _, ⟨part (by omega), rfl⟩, _, ⟨_, ⟨behind, rfl⟩, _, ⟨part (by omega), rfl⟩, rfl⟩,
      _, rfl, rfl⟩

/-- The last actor's loop can be counted where the column of its label can be. -/
theorem ofMid?_none_eq_some_iff : ofMid? n boxReach mid none t = some loop ↔
    n.holds (mid + boxReach + 5) = true ∧ ofMid boxReach mid none t = loop := by
  simp only [ofMid?, corner?, room?, Option.bind_eq_bind, Option.bind_eq_some_iff, Counting.count?_eq_some_iff,
    Text.fit?_eq, Option.some.injEq, Option.pure_def, ofMid, Measure.labelPad, Measure.loopReach]
  constructor
  · rintro ⟨_, ⟨-, rfl⟩, _, ⟨_, ⟨-, rfl⟩, rfl⟩, _, ⟨column, rfl⟩, _, rfl, _, rfl, rfl⟩
    exact ⟨column, rfl⟩
  · rintro ⟨column, rfl⟩
    have part {k : Nat} (le : k ≤ mid + boxReach + 5) : n.holds k = true := Counting.holds_of_le le column
    exact ⟨_, ⟨part (by omega), rfl⟩, _, ⟨_, ⟨part (by omega), rfl⟩, rfl⟩, _, ⟨column, rfl⟩, _, rfl, _, rfl, rfl⟩

theorem ofMid?_yields : Yields (ofMid? n boxReach mid next? t) (ofMid boxReach mid next? t) := by
  intro loop done
  cases next? with
  | some next => exact (ofMid?_eq_some_iff.mp done).2.symm
  | none => exact (ofMid?_none_eq_some_iff.mp done).2.symm

theorem ofMid?_endless : ofMid? .endless boxReach mid next? t = some (ofMid boxReach mid next? t) := by
  cases next? with
  | some next => exact ofMid?_eq_some_iff.mpr ⟨⟨rfl, rfl⟩, rfl⟩
  | none => exact ofMid?_none_eq_some_iff.mpr ⟨rfl, rfl⟩

end Loop

namespace Bar

theorem ends?_yields : Yields (ends? n boxReach left right)
    (if 2 * boxReach + 1 < right - left then (left + boxReach, right - boxReach) else (left, right)) := by
  rw [ends?]
  refine .bind .minus (.bind .count (.ite ?_ fun _ => .of_some rfl))
  exact fun _ => .bind .count (.bind .minus (.of_some rfl))

theorem between_eq : between boxReach left right rightward =
    let ends := if 2 * boxReach + 1 < right - left then (left + boxReach, right - boxReach) else (left, right)
    if rightward then { start := ends.1, stop := ends.2 - 1, rightward }
    else { start := ends.1 + 1, stop := ends.2, rightward } := by
  rw [between]
  by_cases apart : 2 * boxReach + 1 < right - left
  · simp only [if_pos apart]
  · simp only [if_neg apart]

theorem between?_yields :
    Yields (between? n boxReach left right rightward) (between boxReach left right rightward) := by
  rw [between?, between_eq]
  refine .bind ends?_yields (.ite ?_ ?_)
  · exact fun _ => .bind .minus (.of_some rfl)
  · exact fun _ => .bind .count (.of_some rfl)

theorem between?_endless (order : left < right) :
    between? .endless boxReach left right rightward = some (between boxReach left right rightward) := by
  have start : 1 ≤ right := Nat.lt_of_le_of_lt (Nat.zero_le left) order
  simp only [between?, ends?, between_eq, minus?_eq (Nat.le_of_lt order), Counting.count?_endless, Option.bind_eq_bind,
    Option.bind_some, Option.pure_def]
  by_cases apart : 2 * boxReach + 1 < right - left
  · simp only [if_pos apart, minus?_eq (show boxReach ≤ right by omega), Option.bind_some,
      minus?_eq (show 1 ≤ right - boxReach by omega)]
    split <;> rfl
  · simp only [if_neg apart, Option.bind_some, minus?_eq start]
    split <;> rfl

end Bar

/-! ### Shapes -/

namespace Shape

theorem ofActor?_yields : Yields (ofActor? n bottom a) (ofActor bottom a) := by
  rw [ofActor?, ofActor]
  exact .bind .count (.bind .minus (.bind .count (.bind .minus (.bind .count (.bind .count (.of_some rfl))))))

theorem ofActor?_endless : ofActor? .endless bottom a = some (ofActor bottom a) := by
  simp only [ofActor?, Counting.count?_endless, Option.bind_eq_bind, Option.bind_some]
  rw [minus?_eq (by omega), minus?_eq (by omega)]
  rfl

theorem ofActivation?_yields :
    Yields (ofActivation? n boxReach mid first last) (ofActivation boxReach mid first last) := by
  have inside : Yields (inside? n (mid - boxReach) (mid + boxReach) (first - 1) (last + 1))
      (if first - 1 + 1 < last + 1 then [erase (mid - boxReach) (first - 1 + 1) (mid + boxReach) (last + 1 - 1)]
        else []) := by
    rw [inside?]
    refine .bind .count (.ite ?_ fun _ => .of_some rfl)
    exact fun _ => .bind .minus (.of_some rfl)
  rw [ofActivation?, ofActivation]
  exact .bind .count (.bind .count (.bind inside (.of_some rfl)))

theorem ofActivation?_endless :
    ofActivation? .endless boxReach mid first last = some (ofActivation boxReach mid first last) := by
  simp only [ofActivation?, inside?, ofActivation, Counting.count?_endless, Option.bind_eq_bind, Option.bind_some,
    minus?_eq (Nat.le_add_left 1 last)]
  split <;> rfl

theorem labelAbove?_yields : Yields (labelAbove? row l) (ofLabel (row - 1) l) := by
  rw [labelAbove?, ofLabel]
  exact .ite (fun _ => .of_some rfl) (fun _ => .bind .minus (.of_some rfl))

theorem labelAbove?_eq (under : 1 ≤ row) : labelAbove? row l = some (ofLabel (row - 1) l) := by
  rw [labelAbove?, ofLabel, minus?_eq under]
  split <;> rfl

theorem ofBar?_yields : Yields (ofBar? n boxReach p) (ofBar boxReach p) := by
  rw [ofBar?, ofBar]
  refine .bind Bar.between?_yields (.bind ?_ (.bind Label.ofBar?_yields (.bind labelAbove?_yields (.of_some rfl))))
  rw [barStrokes?]
  cases p.message.arrow.weight with
  | thin => exact .of_some rfl
  | thick =>
    refine .ite (fun _ => ?_) (fun _ => .of_some rfl)
    cases p.rightward with
    | true => exact .bind .count (.of_some rfl)
    | false => exact .bind .minus (.of_some rfl)

theorem ofBar?_endless (under : 1 ≤ p.row) (apart : p.source ≠ p.target) :
    ofBar? .endless boxReach p = some (ofBar boxReach p) := by
  have order : min p.source p.target < max p.source p.target := by omega
  simp only [ofBar?, barStrokes?, Bar.between?_endless order, Label.ofBar?_endless, labelAbove?_eq under,
    Counting.count?_endless, Option.bind_eq_bind, Option.bind_some, ofBar]
  cases p.message.arrow.weight with
  | thin => rfl
  | thick =>
    simp only
    split
    · rename_i long
      split
      · rfl
      · rw [minus?_eq (by omega)]
        rfl
    · rfl

theorem ofLoop?_yields : Yields (ofLoop? n boxReach p) (ofLoop boxReach p) := by
  rw [ofLoop?, ofLoop]
  refine .bind Loop.ofMid?_yields (.bind .minus (.bind ?_ (.bind .count (.of_some rfl))))
  rw [loopStrokes?]
  cases p.message.arrow.weight with
  | thin => exact .bind .minus (.of_some rfl)
  | thick =>
    refine .bind .count ?_
    by_cases long : (Loop.ofMid boxReach p.source p.next? p.message.label).start + 1 <
        (Loop.ofMid boxReach p.source p.next? p.message.label).corner
    · simp only [if_pos long]
      exact .bind .minus (.of_some rfl)
    · simp only [if_neg long]
      exact .of_some rfl

theorem ofLoop?_endless (under : 1 ≤ p.row) : ofLoop? .endless boxReach p = some (ofLoop boxReach p) := by
  have turns : 1 ≤ (Loop.ofMid boxReach p.source p.next? p.message.label).corner :=
    Nat.succ_le_of_lt (Nat.lt_of_le_of_lt (Nat.zero_le _) Loop.start_lt_corner)
  simp only [ofLoop?, loopStrokes?, Loop.ofMid?_endless, minus?_eq under, minus?_eq turns, Counting.count?_endless,
    Option.bind_eq_bind, Option.bind_some, ofLoop]
  cases p.message.arrow.weight with
  | thin => rfl
  | thick =>
    simp only
    split <;> rfl

theorem ofMessage?_yields : Yields (ofMessage? n boxReach p) (ofMessage boxReach p) := by
  rw [ofMessage?, ofMessage]
  exact .ite (fun _ => ofLoop?_yields) (fun _ => ofBar?_yields)

theorem ofMessage?_endless (under : 1 ≤ p.row) (apart : p.message.isSelf = false → p.source ≠ p.target) :
    ofMessage? .endless boxReach p = some (ofMessage boxReach p) := by
  rw [ofMessage?, ofMessage]
  split
  · exact ofLoop?_endless under
  · rename_i other
    exact ofBar?_endless under (apart (by simpa using other))

end Shape

namespace PlacedMessage

theorem stop?_yields : Yields (p.stop? n boxReach) (p.stop boxReach) := by
  rw [stop?, stop]
  refine .ite (fun _ => ?_) (fun _ => ?_)
  · exact .bind Loop.ofMid?_yields (.bind .count (.bind .count (.of_some rfl)))
  · exact .bind Label.ofBar?_yields (.bind .count (.bind .count (.of_some rfl)))

/-- The columns of a bar's label, or of a loop, were counted before the end of the message was. -/
theorem label_of_stop? {stop : Nat} (done : p.stop? n boxReach = some stop) (other : p.message.isSelf = false) :
    Label.ofBar? n boxReach (min p.source p.target) (max p.source p.target) p.message.label =
      some (.ofBar boxReach (min p.source p.target) (max p.source p.target) p.message.label) := by
  rw [stop?, if_neg (by simp [other])] at done
  obtain ⟨l, counted, -⟩ := Option.bind_eq_some_iff.mp done
  exact Label.ofBar?_yields l counted ▸ counted

theorem loop_of_stop? {stop : Nat} (done : p.stop? n boxReach = some stop) (self : p.message.isSelf = true) :
    Loop.ofMid? n boxReach p.source p.next? p.message.label =
      some (.ofMid boxReach p.source p.next? p.message.label) := by
  rw [stop?, if_pos self] at done
  obtain ⟨l, counted, -⟩ := Option.bind_eq_some_iff.mp done
  exact Loop.ofMid?_yields l counted ▸ counted

theorem stop?_endless : p.stop? .endless boxReach = some (p.stop boxReach) := by
  apply stop?_yields.eq_some
  rw [stop?]
  split
  · rw [Loop.ofMid?_endless]
    rfl
  · simp only [Label.ofBar?_endless]
    rfl

end PlacedMessage

/-! ### The canvas and what is drawn on it -/

/-- Pieces that can all be counted are drawn, or one of them is refused. -/
theorem Canvas.drawPieces?_isSome {pieces : List (Option (List Shape))} (all : ∀ piece ∈ pieces, piece.isSome = true) :
    (c.drawPieces? pieces).isSome = true := by
  induction pieces generalizing c with
  | nil => rfl
  | cons piece rest ih =>
    obtain ⟨first, behind⟩ := List.forall_mem_cons.mp all
    obtain ⟨shapes, counted⟩ := Option.isSome_iff_exists.mp first
    rw [drawPieces?, counted, Option.bind_eq_bind, Option.bind_some]
    cases c.drawAll shapes with
    | error e => rfl
    | ok next => exact ih behind

/-- Pieces are drawn one after the other. -/
theorem Canvas.drawPieces?_yields {pieces : List (Option (List Shape))} {shapes : List (List Shape)}
    (each : List.Forall₂ Yields pieces shapes) : Yields (c.drawPieces? pieces) (c.drawAll shapes.flatten) := by
  induction each generalizing c with
  | nil => exact .of_some rfl
  | @cons piece first pieces others same _ ih =>
    have split : c.drawAll (first ++ others.flatten) = c.drawAll first >>= (·.drawAll others.flatten) :=
      List.foldlM_append
    rw [drawPieces?, List.flatten_cons, split]
    refine .bind same ?_
    cases c.drawAll first with
    | error e => exact .of_some rfl
    | ok next => exact ih

namespace Picture

theorem row_of_place (done : place cast row index m = .ok p) : p.row = row := by
  rw [place] at done
  split at done
  · cases done
  · cases done
  · cases done
  · cases done
    rfl

theorem place?_yields : Yields (place? n style headerOffset cast index m)
    (place cast (rowOf headerOffset style (index + 1)) index m) := by
  rw [place?]
  cases done : place cast (rowOf headerOffset style (index + 1)) index m with
  | error e => exact .of_some rfl
  | ok p =>
    have same : ({ p with row := rowOf headerOffset style (index + 1) } : PlacedMessage) = p := by
      rw [← row_of_place done]
    exact same ▸ .map .count

theorem placeFrom?_yields (messages : List Message) : Yields (placeFrom? n style headerOffset cast index messages)
    ((messages.zipIdx index).mapM fun (m, index) => place cast (rowOf headerOffset style (index + 1)) index m) := by
  induction messages generalizing index with
  | nil => exact .of_some rfl
  | cons m rest ih =>
    rw [placeFrom?, List.zipIdx_cons, List.mapM_cons]
    refine .bind place?_yields ?_
    dsimp only
    cases place cast (rowOf headerOffset style (index + 1)) index m with
    | error e => exact .of_some rfl
    | ok p => exact .bind ih (.of_some rfl)

theorem stop?_yields : Yields (stop? n style cast placed) (stop cast style placed) := by
  rw [stop?, stop]
  exact .bind (.mapM fun a _ => .count) (.bind (.mapM fun p _ => PlacedMessage.stop?_yields) (.of_some rfl))

theorem sheet?_yields : Yields (sheet? n style headerOffset d) ((placeAll d headerOffset style).map fun placed =>
    { placed, width := canvasWidth d style placed, height := canvasHeight d headerOffset style }) := by
  rw [sheet?]
  refine .bind .count (.bind (placeFrom?_yields d.messages) ?_)
  rw [placeAll]
  cases d.messages.zipIdx.mapM fun (m, index) => place d.cast (rowOf headerOffset style (index + 1)) index m with
  | error e => exact .of_some rfl
  | ok placed => exact .bind stop?_yields (.bind .count (.bind .count (.of_some rfl)))

/-- Whoever has measured the canvas has measured every message. -/
theorem stops_of_sheet? {sheet : Sheet} (done : sheet? n style headerOffset d = some (.ok sheet)) :
    ∀ p ∈ sheet.placed, ∃ stop, p.stop? n style.boxReach = some stop := by
  obtain ⟨bottom, -, rest⟩ := Option.bind_eq_some_iff.mp done
  obtain ⟨result, -, rest⟩ := Option.bind_eq_some_iff.mp rest
  cases result with
  | error e => cases rest
  | ok placed =>
    obtain ⟨stop, stopped, rest⟩ := Option.bind_eq_some_iff.mp rest
    obtain ⟨width, -, rest⟩ := Option.bind_eq_some_iff.mp rest
    obtain ⟨height, -, rest⟩ := Option.bind_eq_some_iff.mp rest
    cases rest
    obtain ⟨rights, -, stops⟩ := Option.bind_eq_some_iff.mp stopped
    obtain ⟨all, ran, -⟩ := Option.bind_eq_some_iff.mp stops
    exact exists_of_mapM ran

/-- What is drawn over the lifelines, piece by piece. -/
theorem foreground?_yields : ∃ pieces, List.Forall₂ Yields (foreground? n style headerOffset d placed) pieces ∧
    pieces.flatten = foreground d headerOffset style placed := by
  let box (a : Actor) (interval : Nat × Nat) : List Shape := Shape.ofActivation style.boxReach a.mid
    (rowOf headerOffset style interval.1) (rowOf headerOffset style interval.2)
  have boxes (a : Actor) :
      List.Forall₂ Yields (activations? n style headerOffset a) (a.lifespan.intervals.map (box a)) := by
    rw [activations?, List.forall₂_map_left_iff, List.forall₂_map_right_iff, List.forall₂_same]
    exact fun interval _ => .bind .count (.bind .count Shape.ofActivation?_yields)
  refine ⟨(d.cast.actors.flatMap fun a => a.lifespan.intervals.map (box a)) ++
    placed.map (Shape.ofMessage style.boxReach), List.rel_append ?_ ?_, ?_⟩
  · refine List.rel_flatMap (List.forall₂_same.mpr fun a _ => (rfl : a = a)) ?_
    intro a b same
    exact same ▸ boxes a
  · rw [List.forall₂_map_left_iff, List.forall₂_map_right_iff, List.forall₂_same]
    exact fun p _ => Shape.ofMessage?_yields
  · simp only [foreground, List.flatMap_def, List.flatten_append, List.flatten_flatten, List.map_map]
    rfl

theorem mem_foreground_of_piece {drawn : List Shape} {s : Shape}
    (piece : some drawn ∈ foreground? n style headerOffset d placed) (member : s ∈ drawn) :
    s ∈ foreground d headerOffset style placed := by
  obtain ⟨pieces, each, same⟩ := @foreground?_yields n style d placed headerOffset
  exact same ▸ List.mem_flatten.mpr ⟨drawn, Yields.mem_of_some each piece, member⟩

theorem pieces?_yields : ∃ pieces, List.Forall₂ Yields (pieces? n style headerOffset d placed) pieces ∧
    pieces.flatten = shapes d headerOffset style placed := by
  obtain ⟨pieces, each, same⟩ := @foreground?_yields n style d placed headerOffset
  refine ⟨d.cast.actors.map (Shape.ofActor (rowOf headerOffset style (d.lineCount + 1))) ++ pieces,
    List.rel_append ?_ each, ?_⟩
  · rw [headers?, List.forall₂_map_left_iff, List.forall₂_map_right_iff, List.forall₂_same]
    exact fun a _ => Shape.ofActor?_yields
  · rw [List.flatten_append, same, ← List.flatMap_def, shapes, foreground, List.append_assoc]

theorem canvas?_yields : Yields (canvas? n style headerOffset d)
    (placeAll d headerOffset style >>= fun placed => (canvas d headerOffset style placed).mapError PaintError.canvas) := by
  rw [canvas?]
  refine .bind sheet?_yields ?_
  cases placeAll d headerOffset style with
  | error e => exact .of_some rfl
  | ok placed =>
    obtain ⟨pieces, each, same⟩ := @pieces?_yields n style d placed headerOffset
    have drawn : canvas d headerOffset style placed =
        Canvas.blank (canvasWidth d style placed) (canvasHeight d headerOffset style) >>= (·.drawAll pieces.flatten) := by
      rw [same]
      rfl
    change Yields _ ((canvas d headerOffset style placed).mapError PaintError.canvas)
    rw [drawn]
    simp only [Except.map]
    cases Canvas.blank (canvasWidth d style placed) (canvasHeight d headerOffset style) with
    | error e => exact .of_some rfl
    | ok blank => exact .bind (Canvas.drawPieces?_yields each) (.of_some rfl)

/-- Where painting comes to its end when it is counted, it ends as it does without
counting. -/
theorem paint?_yields : Yields (paint? n style headerOffset d) (paint style headerOffset d) := by
  rw [paint?, paint]
  refine .ite (fun _ => .of_some rfl) fun _ => ?_
  have sound := (@canvas?_yields n style d headerOffset).map (f := Except.map Canvas.picture)
  cases placed : placeAll d headerOffset style with
  | error e => rw [placed] at sound; exact sound
  | ok placed' => rw [placed] at sound; exact sound

theorem canvas_of_canvas? (all : placeAll d headerOffset style = .ok placed)
    (drew : canvas? n style headerOffset d = some (.ok c)) : canvas d headerOffset style placed = .ok c := by
  have same := canvas?_yields _ drew
  rw [all] at same
  exact Attempt.mapError_eq_ok.mp same.symm

theorem canvas?_of_paint? {picture : Text} (peopled : d.cast.isEmpty = false)
    (painted : paint? n style headerOffset d = some (.ok picture)) :
    ∃ c, canvas? n style headerOffset d = some (.ok c) ∧ c.picture = picture := by
  rw [paint?, peopled, if_neg Bool.false_ne_true] at painted
  obtain ⟨result, drew, shown⟩ := Option.map_eq_some_iff.mp painted
  obtain ⟨c, rfl, same⟩ := Attempt.map_eq_ok.mp shown
  exact ⟨c, drew, same⟩

theorem sheet?_of_canvas? (drew : canvas? n style headerOffset d = some (.ok c)) :
    ∃ sheet, sheet? n style headerOffset d = some (.ok sheet) := by
  obtain ⟨result, measured, rest⟩ := Option.bind_eq_some_iff.mp drew
  cases result with
  | error e => cases rest
  | ok sheet => exact ⟨sheet, measured⟩

/-! ### Without end -/

theorem stop?_endless : stop? .endless style cast placed = some (stop cast style placed) := by
  rw [stop?, mapM_eq_some_map fun a _ => Counting.count?_endless a.slot.right,
    mapM_eq_some_map fun p _ => PlacedMessage.stop?_endless]
  rfl

section

variable (under : ∀ p ∈ placed, 1 ≤ p.row) (apart : ∀ p ∈ placed, p.message.isSelf = false → p.source ≠ p.target)
include under apart

theorem pieces?_endless : ∀ piece ∈ pieces? .endless style headerOffset d placed, piece.isSome = true := by
  intro piece member
  rcases List.mem_append.mp member with header | front
  · obtain ⟨a, -, rfl⟩ := List.mem_map.mp header
    rw [Shape.ofActor?_endless]
    rfl
  rcases List.mem_append.mp front with box | message
  · obtain ⟨a, -, box⟩ := List.mem_flatMap.mp box
    obtain ⟨⟨first, last⟩, -, rfl⟩ := List.mem_map.mp box
    simp only [rowOf?, Counting.count?_endless, Option.bind_eq_bind, Option.bind_some, Shape.ofActivation?_endless]
    rfl
  · obtain ⟨p, held, rfl⟩ := List.mem_map.mp message
    rw [Shape.ofMessage?_endless (under p held) (apart p held)]
    rfl

/-- Painting takes no difference of numbers in the wrong order. -/
theorem shapes?_endless : shapes? .endless style headerOffset d placed = some (shapes d headerOffset style placed) := by
  obtain ⟨pieces, each, same⟩ := @pieces?_yields .endless style d placed headerOffset
  rw [shapes?, Yields.all_eq_some each (pieces?_endless under apart), Option.map_some, same]

end

theorem placeFrom?_endless (messages : List Message) :
    (placeFrom? .endless style headerOffset cast index messages).isSome = true := by
  induction messages generalizing index with
  | nil => rfl
  | cons m rest ih =>
    rw [placeFrom?, place?]
    cases place cast (rowOf headerOffset style (index + 1)) index m with
    | error e => rfl
    | ok p =>
      obtain ⟨others, ran⟩ := Option.isSome_iff_exists.mp (@ih (index + 1))
      simp only [rowOf?, Counting.count?_endless, Option.map_some, Option.bind_eq_bind, Option.bind_some, ran]
      rfl

theorem sheet?_endless : (sheet? .endless style headerOffset d).isSome = true := by
  obtain ⟨result, ran⟩ := Option.isSome_iff_exists.mp (@placeFrom?_endless style d.cast 0 headerOffset d.messages)
  simp only [sheet?, rowOf?, Counting.count?_endless, Option.bind_eq_bind, Option.bind_some, ran]
  cases result with
  | error e => rfl
  | ok placed =>
    simp only [stop?_endless, Option.bind_some]
    rfl

/-- Without an end to the numbers painting comes to its own end. -/
theorem paint?_endless (fine : ∀ placed, placeAll d headerOffset style = .ok placed →
      ∀ p ∈ placed, 1 ≤ p.row ∧ (p.message.isSelf = false → p.source ≠ p.target)) :
    paint? .endless style headerOffset d = some (paint style headerOffset d) := by
  apply paint?_yields.eq_some
  rw [paint?]
  split
  · rfl
  obtain ⟨result, measured⟩ := Option.isSome_iff_exists.mp (@sheet?_endless style d headerOffset)
  have same := sheet?_yields _ measured
  rw [Option.isSome_map, canvas?, measured, Option.bind_eq_bind, Option.bind_some]
  cases result with
  | error e => rfl
  | ok sheet =>
    obtain ⟨placed, all, rfl⟩ := Attempt.map_eq_ok.mp same.symm
    dsimp only
    cases Canvas.blank (canvasWidth d style placed) (canvasHeight d headerOffset style) with
    | error e => rfl
    | ok blank =>
      have counted := @pieces?_endless style d placed headerOffset (fun p member => (fine placed all p member).1)
        fun p member => (fine placed all p member).2
      obtain ⟨drawn, ran⟩ := Option.isSome_iff_exists.mp (Canvas.drawPieces?_isSome (c := blank) counted)
      simp only [ran]
      rfl

end Picture

end SequenceDiagram
