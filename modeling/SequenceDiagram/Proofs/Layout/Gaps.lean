import SequenceDiagram.Proofs.Layout.LabelRoom

/-! Gaps between lifelines. A turn widens at most one gap, the one before the right
end of its demand, and widens it to what the demand leaves for it. Gaps only ever
grow, so what is left for a gap is never more than what the placed headers leave.
A demand that has its room changes nothing, however often it is made again. -/
namespace SequenceDiagram
open Layout

variable {measure : Measure} {page : Page} {d arranged : Diagram} {outcome : Outcome} {ends : List Ends}
  {cast : Cast} {m : Message} {e : Ends} {demand : Demand} {row : List Actor} {gutter count place : Nat}

/-- The columns from the lifeline before a place to the lifeline at it. -/
def gapBefore (row : List Actor) (place : Nat) : Nat := midAt row place - midAt row (place - 1)

/-- What a demand leaves for the gap before its right end where the lifelines up to
that gap stand as in a row. -/
def Demand.leavesFor (base : List Actor) (demand : Demand) : Nat :=
  demand.columns - (midAt base (demand.right - 1) - midAt base demand.left)

/-- What the label of a message demands: room between its two actors, or from an
actor who tells himself something up to the next one. -/
inductive Message.Asks (measure : Measure) (cast : Cast) (m : Message) : Demand → Prop where
  | between {e : Ends} (joins : m.Joins cast e) (apart : e.source ≠ e.target) :
    Asks measure cast m ⟨min e.source e.target, max e.source e.target, measure.message m.label⟩
  | beside {place : Nat} (joins : m.Joins cast ⟨place, place⟩) (followed : place + 1 < cast.size) :
    Asks measure cast m ⟨place, place + 1, measure.loop m.label⟩

theorem Message.Joins.asks (joins : m.Joins cast e) (demanded : m.demand? measure (cast.size - 1) e = some demand) :
    m.Asks measure cast demand := by
  by_cases apart : e.source = e.target
  · obtain ⟨source, target⟩ := e
    cases apart
    rw [demand_beside joins rfl] at demanded
    split at demanded
    · cases demanded
    · cases demanded
      have inner : source ≠ cast.size - 1 := by assumption
      have inside : source < cast.size := joins.source_inside
      have followed : source + 1 < cast.size := by omega
      exact .beside joins followed
  · rw [demand_between joins apart] at demanded
    cases demanded
    exact .between joins apart

theorem Message.Asks.order (asks : m.Asks measure cast demand) :
    demand.left < demand.right ∧ demand.right < cast.size := by
  cases asks with
  | @between e joins apart =>
    have source := joins.source_inside
    have target := joins.target_inside
    exact ⟨by dsimp only; omega, by dsimp only; omega⟩
  | beside joins followed => exact ⟨Nat.lt_succ_self _, followed⟩

namespace Demand

/-- Granting a demand widens the gap before its right end to what is left for it,
and no other gap. -/
theorem gapBefore_grant (side : SideBySide gutter row) (ascends : demand.left < demand.right)
    (within : demand.right < row.length) (inside : place < row.length) :
    gapBefore (demand.grant row) place =
      if place = demand.right then max (gapBefore row place) (demand.leavesFor row) else gapBefore row place := by
  have before : midAt row demand.left ≤ midAt row (demand.right - 1) := midAt_mono side (by omega) (by omega)
  have last : midAt row (demand.right - 1) ≤ midAt row demand.right := midAt_mono side (by omega) within
  unfold grant
  split
  · rename_i met
    have room := (demand.isMet_iff_far_end side (Nat.le_of_lt ascends) within).mp met
    split
    · rename_i same
      rw [same, gapBefore, leavesFor]
      omega
    · rfl
  · rename_i unmet
    have short := mt (demand.isMet_iff_far_end side (Nat.le_of_lt ascends) within).mpr unmet
    rw [gapBefore, midAt_shiftFrom inside, midAt_shiftFrom (by omega : place - 1 < row.length), gapBefore, leavesFor,
      shortfall]
    by_cases same : place = demand.right
    · rw [same, if_pos rfl, if_pos (Nat.le_refl _), if_neg (by omega)]
      omega
    · have level := midAt_mono side (Nat.sub_le place 1) inside
      rw [if_neg same]
      split <;> split <;> omega

theorem shortfall_of_room (room : midAt row demand.left + demand.columns ≤ midAt row demand.right) :
    demand.shortfall row = 0 := by
  rw [shortfall]
  omega

/-- A demand that has its room changes nothing. -/
theorem grant_of_room (room : midAt row demand.left + demand.columns ≤ midAt row demand.right) :
    demand.grant row = row := by
  rw [grant, shortfall_of_room room, shiftFrom_zero, ite_self]

/-- Nothing new is counted for it either. -/
theorem grant?_of_room {n : Counting} (room : midAt row demand.left + demand.columns ≤ midAt row demand.right)
    (counted : ∀ a ∈ row, a.slot.Counted n) : demand.grant? n row = some row := by
  refine grant?_eq_some_iff.mpr ⟨fun _ a moved => ?_, grant_of_room room⟩
  rw [shortfall_of_room room]
  exact counted a (List.mem_of_mem_drop moved)

end Demand

/-- Wider rows leave less for the gap that a demand ends at. -/
theorem Widens.leavesFor_le {base : List Actor} (wider : Widens base row) (ascends : demand.left < demand.right)
    (within : demand.right < base.length) : demand.leavesFor row ≤ demand.leavesFor base := by
  have further := wider.gaps demand.left (demand.right - 1) (by omega) (by omega)
  rw [Demand.leavesFor, Demand.leavesFor]
  omega

theorem Widens.gapBefore_le {base : List Actor} (wider : Widens base row) (inside : place < base.length) :
    gapBefore base place ≤ gapBefore row place := by
  have further := wider.gaps (place - 1) place (Nat.sub_le _ _) inside
  rw [gapBefore, gapBefore]
  omega

/-- A message that has its room has no use for another turn. -/
theorem Message.HasRoom.turn?_eq {n : Counting} (room : m.HasRoom measure row e) (joins : m.Joins cast e)
    (whole : row.length = cast.size) (counted : ∀ a ∈ row, a.slot.Counted n)
    (held : n.holds (m.columns measure) = true) : turn? n measure (cast.size - 1) row (m, e) = some row := by
  have source : e.source < cast.size := joins.source_inside
  refine turn?_eq_some_iff.mpr ⟨held, ?_⟩
  by_cases apart : e.source = e.target
  · rw [demand_beside joins apart]
    split
    · rfl
    · exact Demand.grant?_of_room (room.beside apart (by omega)) counted
  · rw [demand_between joins apart]
    exact Demand.grant?_of_room (room.between apart) counted

namespace Layout.Arranged

variable (result : Arranged measure page d ends arranged outcome)
include result

/-- After any number of turns a gap is as the headers left it, or at most as wide as
one of the labels that end at it asks. -/
theorem gapBefore_row_after (inside : place < d.cast.size) (count : Nat) :
    gapBefore (rowAfter measure page d ends count) place = gapBefore (rowAfter measure page d ends 0) place ∨
      ∃ m ∈ d.messages, ∃ demand, m.Asks measure d.cast demand ∧ demand.right = place ∧
        gapBefore (rowAfter measure page d ends count) place ≤ demand.leavesFor (rowAfter measure page d ends 0) := by
  refine row_after_induction (P := fun row => gapBefore row place = gapBefore (rowAfter measure page d ends 0) place ∨
    ∃ m ∈ d.messages, ∃ demand, m.Asks measure d.cast demand ∧ demand.right = place ∧
      gapBefore row place ≤ demand.leavesFor (rowAfter measure page d ends 0)) (.inl rfl) ?_ count
  intro turn m e demand message found demanded kept
  obtain ⟨e, found', _, joins⟩ := result.places_at message
  cases found.symm.trans found'
  have asks := joins.asks demanded
  obtain ⟨ascends, within⟩ := asks.order
  rw [Demand.gapBefore_grant side_by_side_row_after ascends (length_row_after.symm ▸ within)
    (length_row_after.symm ▸ inside)]
  split
  · rename_i same
    rcases Nat.le_total (demand.leavesFor (rowAfter measure page d ends turn))
      (gapBefore (rowAfter measure page d ends turn) place) with roomy | tight
    · rw [Nat.max_eq_left roomy]
      exact kept
    · rw [Nat.max_eq_right tight]
      refine .inr ⟨m, List.mem_of_getElem? message, demand, asks, same.symm, ?_⟩
      exact (row_after_widens (Nat.zero_le turn)).leavesFor_le ascends (length_row_after.symm ▸ within)
  · exact kept

end Layout.Arranged

namespace Layout.CountedOut

variable {n : Counting} (result : CountedOut n measure page d ends arranged outcome)
include result

/-- Every message of the diagram can be told again any number of times. -/
theorem rowAfter?_copies {copies : List Message} {more : List Ends} (told : ∀ m ∈ copies, m ∈ d.messages)
    (joined : List.Forall₂ (fun m e => m.rightward = none ∧ m.Joins d.cast e) copies more) (lineCount extra : Nat) :
    rowAfter? n measure page { d with messages := d.messages ++ copies, lineCount } (ends ++ more)
      (d.messages.length + extra) = some arranged.cast.actors := by
  have long := result.places.length_eq
  induction extra with
  | zero =>
    have first : ((d.messages ++ copies).zip (ends ++ more)).take d.messages.length =
        (d.messages.zip ends).take d.messages.length := by
      rw [List.zip_append long, List.take_append_of_le_length (by rw [List.length_zip]; omega)]
    rw [result.row, ← result.rows, Nat.add_zero, rowAfter?, rowAfter?, first]
  | succ extra ih =>
    rw [← Nat.add_assoc]
    rcases Nat.lt_or_ge extra copies.length with inside | past
    · have insideMore : extra < more.length := joined.length_eq ▸ inside
      have copy : (d.messages ++ copies)[d.messages.length + extra]? = some copies[extra] := by
        rw [List.getElem?_append_right (Nat.le_add_right _ _), Nat.add_sub_cancel_left, List.getElem?_eq_getElem inside]
      have place : (ends ++ more)[d.messages.length + extra]? = some more[extra] := by
        rw [long, List.getElem?_append_right (Nat.le_add_right _ _), Nat.add_sub_cancel_left,
          List.getElem?_eq_getElem insideMore]
      have again := told _ (List.getElem_mem inside)
      obtain ⟨turn, first⟩ := List.mem_iff_getElem?.mp again
      obtain ⟨e, found, _, joins⟩ := result.places_at first
      cases joins.unique (joined.get inside insideMore).2
      have room : copies[extra].HasRoom measure arranged.cast.actors more[extra] :=
        result.row ▸ room_from_turn first found joins (List.getElem?_eq_some_iff.mp first).1
      rw [rowAfter?_succ copy place, ih, Option.bind_some]
      exact room.turn?_eq joins (result.row ▸ length_row_after) result.slots (result.columns _ again)
    · have finished : ((d.messages ++ copies).zip (ends ++ more)).length ≤ d.messages.length + extra := by
        rw [List.length_zip, List.length_append]
        omega
      rw [rowAfter?_of_past (Nat.le_succ_of_le finished), ← rowAfter?_of_past finished]
      exact ih

/-- Where somebody takes part, messages told again leave all actors where they are, and
no more is counted for them than before. -/
theorem arrange?_copies (peopled : d.cast.isEmpty = false) {copies : List Message}
    (told : ∀ m ∈ copies, m ∈ d.messages) (lineCount : Nat) :
    ∃ more outcome', arrange? n measure page { d with messages := d.messages ++ copies, lineCount } =
        some (.ok (more, outcome')) ∧ more.cast = arranged.cast := by
  have places : ∀ m ∈ copies, m.rightward = none ∧ ∃ e, m.Joins d.cast e := by
    intro m copied
    obtain ⟨turn, message⟩ := List.mem_iff_getElem?.mp (told m copied)
    obtain ⟨e, _, unknown, joins⟩ := result.places_at message
    exact ⟨unknown, e, joins⟩
  obtain ⟨more, resolved⟩ := resolve_ends_succeeds (d := { d with messages := copies }) places
  have joined := resolve_ends_eq_ok.mp resolved
  have all : resolveEnds { d with messages := d.messages ++ copies, lineCount } = .ok (ends ++ more) :=
    resolve_ends_eq_ok.mpr (List.rel_append result.places joined)
  have succeeds : ∃ again outcome',
      arrange measure page { d with messages := d.messages ++ copies, lineCount } = .ok (again, outcome') := by
    rw [arrange, all]
    split <;> exact ⟨_, _, rfl⟩
  obtain ⟨again, outcome', done⟩ := succeeds
  have last := result.rowAfter?_copies told joined lineCount copies.length
  rw [← List.length_append] at last
  have ran : arrange? n measure page { d with messages := d.messages ++ copies, lineCount } =
      some (.ok (again, outcome')) :=
    (arrange?_eq_some_iff (by exact peopled) all).mpr ⟨⟨_, last, result.bottoms⟩, done⟩
  obtain ⟨_, whole⟩ := arranged_of_ok (by exact peopled) done
  cases all.symm.trans (resolve_ends_eq_ok.mpr whole.places)
  exact ⟨again, outcome', ran, congrArg Cast.mk (whole.row.trans (rowAfter?_yields _ last).symm)⟩

end Layout.CountedOut

/-- A layout widens the gaps between lifelines for labels and for nothing else. No gap
is narrower than the headers leave it, and one that is wider is at most as wide as
some label that ends at it asks for, so where no label ends the gap is that of the
headers. Messages told again, in any order and number, move nobody, and what could be
counted without them can be counted with them. -/
theorem gaps_widen_only_for_labels (n : Counting) (measure : Measure) (page : Page) (d arranged : Diagram)
    (outcome : Outcome) (done : Layout.arrange? n measure page d = some (.ok (arranged, outcome))) :
    let headers := placeHeaders measure page page.gutter d.cast.actors
    (d.cast.isEmpty = false → placeHeaders? n measure page page.gutter d.cast.actors = some headers) ∧
    (∀ place, 1 ≤ place → place < d.cast.size →
      gapBefore headers place ≤ gapBefore arranged.cast.actors place ∧
      (gapBefore arranged.cast.actors place = gapBefore headers place ∨
        ∃ m ∈ d.messages, ∃ demand, m.Asks measure d.cast demand ∧ demand.right = place ∧
          gapBefore arranged.cast.actors place ≤ demand.leavesFor headers) ∧
      ((∀ m ∈ d.messages, ∀ demand, m.Asks measure d.cast demand → demand.right ≠ place) →
        gapBefore arranged.cast.actors place = gapBefore headers place)) ∧
    ∀ copies lineCount, (∀ m ∈ copies, m ∈ d.messages) → ∃ more outcome',
      Layout.arrange? n measure page { d with messages := d.messages ++ copies, lineCount } =
          some (.ok (more, outcome')) ∧
        more.cast = arranged.cast := by
  intro headers
  cases peopled : d.cast.isEmpty with
  | true =>
    have nobody : d.cast.actors = [] := List.isEmpty_iff.mp peopled
    rw [arrange?, if_pos peopled] at done
    cases done
    refine ⟨fun somebody => ?_, fun place _ inside => ?_, fun copies lineCount _ => ⟨_, _, if_pos peopled, rfl⟩⟩
    · cases somebody
    · rw [Cast.size, nobody] at inside
      cases inside
  | false =>
    obtain ⟨ends, result⟩ := counted_of_ok peopled done
    refine ⟨fun _ => rowAfter?_zero ▸ result.rows 0, fun place after inside => ?_, fun copies lineCount told =>
      result.arrange?_copies peopled told lineCount⟩
    have bound := result.gapBefore_row_after inside d.messages.length
    rw [← result.row] at bound
    refine ⟨?_, bound, fun free => ?_⟩
    · have wider : Widens headers arranged.cast.actors := result.row ▸ row_after_widens (Nat.zero_le _)
      exact wider.gapBefore_le (by rwa [length_placeHeaders])
    · rcases bound with same | ⟨m, sent, demand, asks, there, _⟩
      · exact same
      · exact absurd there (free m sent demand asks)

/-- Labels over the first three and over the last three of four actors, and one that
the second tells itself. -/
def overlapping : Diagram where
  cast := ⟨[{ name := ['A'] }, { name := ['B'] }, { name := ['C'] }, { name := ['D'] }]⟩
  messages := [
    { arrow := ⟨.thin, false⟩, source := ['B'], target := ['D'], label := List.replicate 30 'x' },
    { arrow := ⟨.thick, true⟩, source := ['C'], target := ['A'], label := List.replicate 40 'y' },
    { arrow := ⟨.thin, false⟩, source := ['B'], target := ['B'], label := List.replicate 20 'z' }]
  lineCount := 3

theorem gaps_widen_only_for_labels_overlapping : ∃ arranged outcome,
    Layout.arrange? .words .cells (.terminal 80) overlapping = some (.ok (arranged, outcome)) ∧
    gapBefore (placeHeaders .cells (.terminal 80) 2 overlapping.cast.actors) 2 = 7 ∧
    gapBefore arranged.cast.actors 2 = 33 ∧
    (∃ m ∈ overlapping.messages, ∃ demand, m.Asks .cells overlapping.cast demand ∧ demand.right = 2 ∧
      33 ≤ demand.leavesFor (placeHeaders .cells (.terminal 80) 2 overlapping.cast.actors)) ∧
    ∃ more outcome', Layout.arrange? .words .cells (.terminal 80)
        { overlapping with messages := overlapping.messages ++ overlapping.messages.reverse } =
          some (.ok (more, outcome')) ∧
      more.cast = arranged.cast := by
  refine ⟨_, _, rfl, rfl, rfl, ?_⟩
  obtain ⟨_, gaps, again⟩ := gaps_widen_only_for_labels .words .cells (.terminal 80) overlapping _ _ rfl
  obtain ⟨_, bound, _⟩ := gaps 2 (by decide) (by decide)
  refine ⟨bound.resolve_left (by decide), ?_⟩
  exact again _ overlapping.lineCount fun m told => List.mem_reverse.mp told

end SequenceDiagram
