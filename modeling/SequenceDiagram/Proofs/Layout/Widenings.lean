import SequenceDiagram.Proofs.Layout.Gaps

/-! What a layout reports of its widening. A turn has columns to spare, or it fits
exactly, or columns are missing. It moves actors in the last case alone; but a demand
counts as met only with a column to spare, so that a label which fits exactly is
reported as well, with nobody moved. No turn that moves somebody goes unreported. -/
namespace SequenceDiagram
open Layout

variable {measure : Measure} {page : Page} {d arranged : Diagram} {outcome : Outcome} {ends : List Ends}
  {cast : Cast} {m : Message} {e : Ends} {demand : Demand} {row : List Actor} {gutter turn : Nat} {w : Widening}

/-- What a message demands follows from its label and the places of its actors. -/
theorem Message.Joins.asks_iff (joins : m.Joins cast e) :
    m.Asks measure cast demand ↔ m.demand? measure (cast.size - 1) e = some demand := by
  refine ⟨fun asks => ?_, joins.asks⟩
  cases asks with
  | between also apart =>
    cases joins.unique also
    exact demand_between joins apart
  | @beside place also followed =>
    cases joins.unique also
    have inner : place ≠ cast.size - 1 := by omega
    exact (demand_beside joins rfl).trans (if_neg inner)

namespace Demand

/-- The columns that a row has to spare for a demand; below zero if some are missing. -/
def spare (row : List Actor) (demand : Demand) : Int :=
  midAt row demand.right - midAt row demand.left - demand.columns

/-- An exact fit does not count as met. -/
theorem isMet_iff_spare (side : SideBySide gutter row) (ascends : demand.left < demand.right)
    (within : demand.right < row.length) : demand.isMet row = true ↔ 0 < demand.spare row := by
  rw [demand.isMet_iff_far_end side (Nat.le_of_lt ascends) within, spare]
  omega

/-- An exact fit moves nobody. -/
theorem grant_eq_iff_spare (side : SideBySide gutter row) (ascends : demand.left < demand.right)
    (within : demand.right < row.length) : demand.grant row = row ↔ 0 ≤ demand.spare row := by
  rw [spare]
  constructor
  · intro still
    have room := demand.grant_meets side ascends within
    rw [still] at room
    omega
  · intro enough
    exact grant_of_room (by omega)

end Demand

namespace Layout

theorem widenings_append (row : List Actor) (first second : List (Nat × Demand)) :
    widenings row (first ++ second) = widenings row first ++ widenings (grantAll row first) second := by
  induction first generalizing row with
  | nil => rfl
  | cons asked first ih =>
    obtain ⟨index, demand⟩ := asked
    rw [List.cons_append, widenings, widenings, ih]
    simp only [grantAll, List.foldl_cons]
    split <;> rfl

/-- What is reported of a turn. -/
def reportAt? (measure : Measure) (page : Page) (d : Diagram) (ends : List Ends) (turn : Nat) : Option Widening := do
  let m ← d.messages[turn]?
  let e ← ends[turn]?
  let demand ← m.demand? measure (d.cast.size - 1) e
  if demand.isMet (rowAfter measure page d ends turn) then none else some ⟨turn, demand.columns⟩

theorem reportAt?_eq (message : d.messages[turn]? = some m) (places : ends[turn]? = some e) :
    reportAt? measure page d ends turn = (m.demand? measure (d.cast.size - 1) e).bind fun demand =>
      if demand.isMet (rowAfter measure page d ends turn) then none else some ⟨turn, demand.columns⟩ := by
  rw [reportAt?, message, places]
  rfl

/-- The report of some turns is that of each of them, one after the other. -/
theorem widenings_take (inside : turn ≤ (d.messages.zip ends).length) :
    widenings (placeHeaders measure page page.gutter d.cast.actors)
      (demands measure { d with messages := d.messages.take turn } (ends.take turn)) =
      (List.range turn).filterMap (reportAt? measure page d ends) := by
  induction turn with
  | zero => rfl
  | succ turn ih =>
    rw [List.length_zip] at inside
    have message : d.messages[turn]? = some d.messages[turn] := List.getElem?_eq_getElem (by omega)
    have places : ends[turn]? = some ends[turn] := List.getElem?_eq_getElem (by omega)
    have earlier := ih (by rw [List.length_zip]; omega)
    rw [demands_succ message places, widenings_append, earlier, List.range_succ, List.filterMap_append, ← rowAfter,
      List.filterMap_cons, List.filterMap_nil, reportAt?_eq message places]
    congr 1
    cases (d.messages[turn]).demand? measure (d.cast.size - 1) ends[turn] with
    | none => rfl
    | some demand =>
      rw [Option.map_some, Option.toList_some, Option.bind_some, widenings, widenings]
      split <;> rfl

/-- The report of a layout is that of its turns. -/
theorem Arranged.widened (result : Arranged measure page d ends arranged outcome) (peopled : d.cast.isEmpty = false)
    (done : arrange measure page d = .ok (arranged, outcome)) :
    outcome.widened = (List.range d.messages.length).filterMap (reportAt? measure page d ends) := by
  have long : (d.messages.zip ends).length = d.messages.length := by
    rw [List.length_zip, ← result.places.length_eq, Nat.min_self]
  rw [arrange, resolve_ends_eq_ok.mpr result.places, peopled] at done
  cases done
  rw [← widenings_take (Nat.le_of_eq long.symm), List.take_length,
    List.take_of_length_le (Nat.le_of_eq result.places.length_eq.symm)]

/-- What is reported of a turn are the columns that its message demands. -/
theorem demanded_of_reportAt (reported : reportAt? measure page d ends turn = some w) : ∃ m e demand,
    d.messages[turn]? = some m ∧ ends[turn]? = some e ∧ m.demand? measure (d.cast.size - 1) e = some demand ∧
      w = ⟨turn, demand.columns⟩ := by
  simp only [reportAt?, Option.bind_eq_bind, Option.bind_eq_some_iff] at reported
  obtain ⟨m, message, e, places, demand, demanded, unmet⟩ := reported
  split at unmet
  · cases unmet
  · cases unmet
    exact ⟨m, e, demand, message, places, demanded, rfl⟩

theorem index_of_reportAt (reported : reportAt? measure page d ends turn = some w) : w.index = turn := by
  obtain ⟨_, _, _, _, _, _, rfl⟩ := demanded_of_reportAt reported
  rfl

section

variable (whole : outcome.widened = (List.range d.messages.length).filterMap (reportAt? measure page d ends))
include whole

/-- A turn stands in the report of all if there is one of its own. -/
theorem reported_iff (inside : turn < d.messages.length) :
    (∃ w ∈ outcome.widened, w.index = turn) ↔ (reportAt? measure page d ends turn).isSome := by
  rw [whole, Option.isSome_iff_exists]
  simp only [List.mem_filterMap, List.mem_range]
  constructor
  · rintro ⟨w, ⟨other, _, found⟩, same⟩
    exact ⟨w, (index_of_reportAt found).symm.trans same ▸ found⟩
  · rintro ⟨w, found⟩
    exact ⟨w, ⟨turn, inside, found⟩, index_of_reportAt found⟩

/-- The report goes through the turns in order and has each at most once. -/
theorem pairwise_widened : outcome.widened.Pairwise fun v w => v.index < w.index := by
  rw [whole, List.pairwise_filterMap]
  refine List.pairwise_lt_range.imp fun order v first w second => ?_
  rwa [index_of_reportAt first, index_of_reportAt second]

theorem asked_of_widened (result : Arranged measure page d ends arranged outcome) (reported : w ∈ outcome.widened) :
    ∃ m demand, d.messages[w.index]? = some m ∧ m.Asks measure d.cast demand ∧ demand.columns = w.columns := by
  rw [whole, List.mem_filterMap] at reported
  obtain ⟨turn, _, found⟩ := reported
  obtain ⟨m, e, demand, message, places, demanded, rfl⟩ := demanded_of_reportAt found
  obtain ⟨_, also, _, joins⟩ := result.places_at message
  cases places.symm.trans also
  exact ⟨m, demand, message, joins.asks demanded, rfl⟩

end

section

variable (message : d.messages[turn]? = some m) (places : ends[turn]? = some e) (joins : m.Joins d.cast e)
include message places joins

/-- A turn is reported if and only if there is no column to spare. -/
theorem reportAt_iff_spare (asks : m.Asks measure d.cast demand) :
    (reportAt? measure page d ends turn).isSome ↔ demand.spare (rowAfter measure page d ends turn) ≤ 0 := by
  obtain ⟨ascends, within⟩ := asks.order
  have whole : (rowAfter measure page d ends turn).length = d.cast.size := length_row_after
  have met := demand.isMet_iff_spare side_by_side_row_after ascends (whole.symm ▸ within)
  rw [reportAt?_eq message places, joins.asks_iff.mp asks, Option.bind_some, ← Int.not_lt, ← met]
  cases demand.isMet (rowAfter measure page d ends turn) <;> simp

/-- A turn moves somebody if and only if columns are missing. -/
theorem moves_iff_spare (asks : m.Asks measure d.cast demand) :
    rowAfter measure page d ends (turn + 1) ≠ rowAfter measure page d ends turn ↔
      demand.spare (rowAfter measure page d ends turn) < 0 := by
  obtain ⟨ascends, within⟩ := asks.order
  have whole : (rowAfter measure page d ends turn).length = d.cast.size := length_row_after
  rw [row_after_succ message places, joins.asks_iff.mp asks, Option.elim_some, ne_eq,
    demand.grant_eq_iff_spare side_by_side_row_after ascends (whole.symm ▸ within), Int.not_le]

/-- A turn without a demand is not reported and moves nobody. -/
theorem still_of_no_demand (none_asked : ∀ demand, ¬m.Asks measure d.cast demand) :
    (reportAt? measure page d ends turn).isSome = false ∧
      rowAfter measure page d ends (turn + 1) = rowAfter measure page d ends turn := by
  have undemanded : m.demand? measure (d.cast.size - 1) e = none :=
    Option.eq_none_iff_forall_ne_some.mpr fun demand demanded => none_asked demand (joins.asks demanded)
  rw [reportAt?_eq message places, row_after_succ message places, undemanded]
  exact ⟨rfl, rfl⟩

end

end Layout

/-- A layout reports each turn in which a label leaves no column to spare, and no other.
That is every turn that moves somebody, and besides them those in which a label fits
exactly and nobody is moved; so where no label fits exactly, the report is of those turns
that move somebody. It says how many columns the message asks for, and a message that
asks for none is not reported. -/
theorem reported_without_column_to_spare (measure : Measure) (page : Page) (d arranged : Diagram) (outcome : Outcome)
    (done : Layout.arrange measure page d = .ok (arranged, outcome)) :
    outcome.widened.Pairwise (fun v w => v.index < w.index) ∧
    (d.cast.isEmpty = true → outcome.widened = []) ∧
    (d.cast.isEmpty = false → ∃ ends, resolveEnds d = .ok ends ∧
      arranged.cast.actors = rowAfter measure page d ends d.messages.length ∧
      (∀ w ∈ outcome.widened, ∃ m demand, d.messages[w.index]? = some m ∧ m.Asks measure d.cast demand ∧
        demand.columns = w.columns) ∧
      ∀ turn m, d.messages[turn]? = some m →
        let before := rowAfter measure page d ends turn
        let after := rowAfter measure page d ends (turn + 1)
        let reported := ∃ w ∈ outcome.widened, w.index = turn
        ((∀ demand, ¬m.Asks measure d.cast demand) → ¬reported ∧ after = before) ∧
        (∀ demand, m.Asks measure d.cast demand →
          (reported ↔ demand.spare before ≤ 0) ∧ (after ≠ before ↔ demand.spare before < 0)) ∧
        (reported ↔ after ≠ before ∨ ∃ demand, m.Asks measure d.cast demand ∧ demand.spare before = 0)) := by
  cases peopled : d.cast.isEmpty with
  | true =>
    rw [arrange, if_pos peopled] at done
    cases done
    exact ⟨.nil, fun _ => rfl, fun other => absurd other (by simp)⟩
  | false =>
    obtain ⟨ends, result⟩ := arranged_of_ok peopled done
    have whole := result.widened peopled done
    refine ⟨pairwise_widened whole, fun other => absurd other (by simp), fun _ => ?_⟩
    refine ⟨ends, resolve_ends_eq_ok.mpr result.places, result.row,
      fun w => asked_of_widened whole result, fun turn m message => ?_⟩
    intro before after reported
    obtain ⟨e, places, _, joins⟩ := result.places_at message
    have own : reported ↔ (reportAt? measure page d ends turn).isSome :=
      reported_iff whole (List.getElem?_eq_some_iff.mp message).1
    have spare demand (asks : m.Asks measure d.cast demand) :
        (reported ↔ demand.spare before ≤ 0) ∧ (after ≠ before ↔ demand.spare before < 0) :=
      ⟨own.trans (reportAt_iff_spare message places joins asks), moves_iff_spare message places joins asks⟩
    have still (none_asked : ∀ demand, ¬m.Asks measure d.cast demand) : ¬reported ∧ after = before := by
      rw [own, Bool.not_eq_true]
      exact still_of_no_demand message places joins none_asked
    refine ⟨still, spare, fun told => ?_, ?_⟩
    · obtain ⟨demand, asks⟩ : ∃ demand, m.Asks measure d.cast demand :=
        Classical.not_forall_not.mp fun none_asked => (still none_asked).1 told
      rcases Int.lt_or_eq_of_le ((spare demand asks).1.mp told) with short | exact_fit
      · exact .inl ((spare demand asks).2.mpr short)
      · exact .inr ⟨demand, asks, exact_fit⟩
    · rintro (moved | ⟨demand, asks, exact_fit⟩)
      · obtain ⟨demand, asks⟩ : ∃ demand, m.Asks measure d.cast demand :=
          Classical.not_forall_not.mp fun none_asked => moved (still none_asked).2
        exact (spare demand asks).1.mpr (Int.le_of_lt ((spare demand asks).2.mp moved))
      · exact (spare demand asks).1.mpr (Int.le_of_eq exact_fit)

/-- A label that fits exactly between two headers, and a longer one. -/
def exactThenLonger : Diagram where
  cast := ⟨[{ name := ['A'] }, { name := ['B'] }]⟩
  messages := [
    { arrow := ⟨.thin, false⟩, source := ['A'], target := ['B'], label := ['h', 'i'] },
    { arrow := ⟨.thin, false⟩, source := ['B'], target := ['A'], label := "hello".toList }]
  lineCount := 2

/-- Both are reported, but only the second moves anybody. -/
theorem reported_without_column_to_spare_exact_then_longer : ∃ arranged outcome ends,
    Layout.arrange (.terminal 1) (.terminal 80) exactThenLonger = .ok (arranged, outcome) ∧
    resolveEnds exactThenLonger = .ok ends ∧
    (∃ w ∈ outcome.widened, w.index = 0) ∧ (∃ w ∈ outcome.widened, w.index = 1) ∧
    let row := rowAfter (.terminal 1) (.terminal 80) exactThenLonger ends
    row 1 = row 0 ∧ row 2 ≠ row 1 := by
  obtain ⟨_, _, peopled⟩ := reported_without_column_to_spare (.terminal 1) (.terminal 80) exactThenLonger _ _ rfl
  obtain ⟨ends, resolved, _, _, turns⟩ := peopled rfl
  cases (show resolveEnds exactThenLonger = .ok [⟨0, 1⟩, ⟨1, 0⟩] from rfl).symm.trans resolved
  obtain ⟨_, spare, _⟩ := turns 0 _ rfl
  obtain ⟨told, moved⟩ := spare _ (@Message.Asks.between _ _ _ ⟨0, 1⟩ ⟨rfl, rfl⟩ (by decide))
  obtain ⟨_, spare, _⟩ := turns 1 _ rfl
  obtain ⟨toldNext, movedNext⟩ := spare _ (@Message.Asks.between _ _ _ ⟨1, 0⟩ ⟨rfl, rfl⟩ (by decide))
  refine ⟨_, _, _, rfl, rfl, told.mpr (by decide), toldNext.mpr (by decide), ?_, movedNext.mpr (by decide)⟩
  exact Classical.not_not.mp fun other => absurd (moved.mp other) (by decide)

end SequenceDiagram
