import SequenceDiagram.Proofs.Layout.Counted

/-! Label room. Every message of an arranged diagram has the distance that its
label asks for, from the turn in which it was granted to the end of the layout.
Nothing is asked of the measure or the page, and a message may come anywhere
among the others. -/
namespace SequenceDiagram
open Layout

variable {measure : Measure} {page : Page} {d arranged : Diagram} {outcome : Outcome}
  {ends : List Ends} {cast : Cast} {m : Message} {e : Ends} {row wider : List Actor}
  {gutter last count turn : Nat}

/-- The distances that the label of a message asks of a row: between its two
actors, or, for a message to oneself, up to the next actor if there is one. -/
structure Message.HasRoom (measure : Measure) (row : List Actor) (m : Message) (e : Ends) : Prop where
  between : e.source ≠ e.target →
    midAt row (min e.source e.target) + measure.message m.label ≤ midAt row (max e.source e.target)
  beside : e.source = e.target → e.source + 1 < row.length →
    midAt row e.source + measure.loop m.label ≤ midAt row (e.source + 1)

/-- Messages between two actors demand room between them. -/
theorem demand_between (joins : m.Joins cast e) (apart : e.source ≠ e.target) :
    m.demand? measure last e =
      some ⟨min e.source e.target, max e.source e.target, measure.message m.label⟩ := by
  have other : m.isSelf = false := by simpa using mt joins.same_place_iff.mpr apart
  have order : min e.source e.target < max e.source e.target := by omega
  simp [Message.demand?, other, order]

/-- Messages to oneself demand room up to the next actor. -/
theorem demand_beside (joins : m.Joins cast e) (same : e.source = e.target) :
    m.demand? measure last e =
      if e.source = last then none else some ⟨e.source, e.source + 1, measure.loop m.label⟩ := by
  have self : m.isSelf = true := joins.same_place_iff.mp same
  simp [Message.demand?, self, ← same]

/-- The turn of a message leaves the room that its label asks for. -/
theorem turn_leaves_room (joins : m.Joins cast e) (side : SideBySide gutter row)
    (whole : row.length = cast.size) :
    m.HasRoom measure ((m.demand? measure (cast.size - 1) e).elim id Demand.grant row) e := by
  have sourceInside := joins.source_inside
  have targetInside := joins.target_inside
  constructor
  · intro apart
    rw [demand_between joins apart]
    exact Demand.grant_meets _ side (by simp only; omega) (by simp only; omega)
  · intro same inside
    rw [demand_beside joins same] at inside ⊢
    split at inside
    · rw [Option.elim_none, id_eq] at inside
      omega
    · rename_i notLast
      rw [if_neg notLast]
      exact Demand.grant_meets _ side (Nat.lt_succ_self _) (by simp only; omega)

theorem room_kept_when_widened (joins : m.Joins cast e) (whole : row.length = cast.size)
    (widened : Widens row wider) (room : m.HasRoom measure row e) : m.HasRoom measure wider e := by
  have sourceInside := joins.source_inside
  have targetInside := joins.target_inside
  constructor
  · intro apart
    exact widened.keeps_room (by omega) (by omega) (room.between apart)
  · intro same inside
    rw [widened.length_eq] at inside
    exact widened.keeps_room (Nat.le_succ _) inside (room.beside same inside)

/-- From its own turn on a message has its room. -/
theorem room_from_turn (message : d.messages[turn]? = some m) (place : ends[turn]? = some e)
    (joins : m.Joins d.cast e) (past : turn < count) :
    m.HasRoom measure (rowAfter measure page d ends count) e := by
  have granted : m.HasRoom measure (rowAfter measure page d ends (turn + 1)) e := by
    rw [row_after_succ message place]
    exact turn_leaves_room joins side_by_side_row_after length_row_after
  exact room_kept_when_widened joins length_row_after (row_after_widens past) granted

/-- Every label has its room in the arranged diagram, had it as soon as its
message had its turn, and no later turn brings two centre lines closer. This is so
however far numbers are counted, wherever the layout comes to its end: the rows
after its turns, as they are counted out, are the rows that the labels have room in. -/
theorem labels_have_room (n : Counting) (measure : Measure) (page : Page) (d arranged : Diagram) (outcome : Outcome)
    (peopled : d.cast.isEmpty = false)
    (done : Layout.arrange? n measure page d = some (.ok (arranged, outcome))) :
    ∃ ends, Layout.resolveEnds d = .ok ends ∧
      (∀ count, rowAfter? n measure page d ends count = some (rowAfter measure page d ends count)) ∧
      arranged.cast.actors = rowAfter measure page d ends d.messages.length ∧
      (∀ (turn : Nat) (m : Message), d.messages[turn]? = some m → ∃ e : Ends,
        ends[turn]? = some e ∧ m.Joins arranged.cast e ∧ m.HasRoom measure arranged.cast.actors e ∧
        ∀ count, turn < count → m.HasRoom measure (rowAfter measure page d ends count) e) ∧
      ∀ count later, count ≤ later →
        Widens (rowAfter measure page d ends count) (rowAfter measure page d ends later) := by
  obtain ⟨ends, result⟩ := counted_of_ok peopled done
  refine ⟨ends, resolve_ends_eq_ok.mpr result.places, result.rows, result.row, ?_, fun _ _ => row_after_widens⟩
  intro turn m message
  obtain ⟨e, place, _, joins⟩ := result.places_at message
  have inside : turn < d.messages.length := (List.getElem?_eq_some_iff.mp message).1
  refine ⟨e, place, result.joins_iff.mpr joins, ?_, fun _ => room_from_turn message place joins⟩
  exact result.row ▸ room_from_turn message place joins inside

/-- A wide label from the first actor to the third, then one that the second
actor tells itself: the later demand pushes the third actor on. -/
def wideThenInner : Diagram where
  cast := ⟨[{ name := ['A'] }, { name := ['B'] }, { name := ['C'] }]⟩
  messages := [
    { arrow := ⟨.thin, false⟩, source := ['C'], target := ['A'], label := List.replicate 40 'x' },
    { arrow := ⟨.thick, true⟩, source := ['B'], target := ['B'], label := List.replicate 50 'y' }]
  lineCount := 2

theorem labels_have_room_wide_then_inner :
    wideThenInner.cast.isEmpty = false ∧ ∃ arranged outcome,
      Layout.arrange? .words (.terminal 1) (.terminal 80) wideThenInner = some (.ok (arranged, outcome)) ∧
      ∀ (turn : Nat) (m : Message), wideThenInner.messages[turn]? = some m → ∃ e : Ends,
        m.Joins arranged.cast e ∧ m.HasRoom (.terminal 1) arranged.cast.actors e := by
  refine ⟨rfl, _, _, rfl, ?_⟩
  obtain ⟨ends, _, _, _, rooms, _⟩ :=
    labels_have_room .words (.terminal 1) (.terminal 80) wideThenInner _ _ rfl rfl
  intro turn m message
  obtain ⟨e, _, joins, room, _⟩ := rooms turn m message
  exact ⟨e, joins, room⟩

/-- A label that asks for half of all columns and more ends the layout. -/
example : Layout.arrange? .words { header := List.length, message := fun _ => 0x8000000000000000 } (.terminal 80) wideThenInner =
    none := by decide

end SequenceDiagram
