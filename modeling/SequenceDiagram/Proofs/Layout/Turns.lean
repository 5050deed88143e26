import SequenceDiagram.Layout.Arrange
import SequenceDiagram.Proofs.Attempt
import SequenceDiagram.Proofs.Layout.Row

/-! A layout as a run. Headers are placed once, then the messages have their
turns in order, each turn granting one demand or none. What a grant keeps, the
row keeps from any turn to any later one. -/
namespace SequenceDiagram
open Layout

variable {measure : Measure} {page : Page} {d arranged : Diagram} {outcome : Outcome}
  {ends : List Ends} {cast : Cast} {m : Message} {e other : Ends} {gutter count later index : Nat}

/-- The places of both actors of a message. -/
structure Message.Joins (cast : Cast) (m : Message) (e : Ends) : Prop where
  source : cast.indexOf? m.source = some e.source
  target : cast.indexOf? m.target = some e.target

theorem indexOf_spec {name : Text} {place : Nat} (found : cast.indexOf? name = some place) :
    ∃ inside : place < cast.actors.length, cast.actors[place].name = name := by
  obtain ⟨inside, named, _⟩ := List.findIdx?_eq_some_iff_getElem.mp found
  exact ⟨inside, by simpa using named⟩

theorem indexOf_eq_none_iff {name : Text} : cast.indexOf? name = none ↔ name ∉ cast.names := by
  rw [Cast.indexOf?, List.findIdx?_eq_none_iff, Cast.names, List.mem_map]
  simp only [beq_eq_false_iff_ne, ne_eq, not_exists, not_and]

theorem indexOf_of_mem_names {name : Text} (held : name ∈ cast.names) :
    ∃ place, cast.indexOf? name = some place :=
  Option.ne_none_iff_exists'.mp fun missing => indexOf_eq_none_iff.mp missing held

namespace Message.Joins

theorem source_inside (joins : m.Joins cast e) : e.source < cast.size := (indexOf_spec joins.source).1

theorem target_inside (joins : m.Joins cast e) : e.target < cast.size := (indexOf_spec joins.target).1

theorem unique (joins : m.Joins cast e) (also : m.Joins cast other) : e = other := by
  obtain ⟨source, target⟩ := e
  obtain ⟨otherSource, otherTarget⟩ := other
  rw [Ends.mk.injEq]
  exact ⟨Option.some.inj (joins.source.symm.trans also.source),
    Option.some.inj (joins.target.symm.trans also.target)⟩

/-- Actors are told apart by name and by place alike. -/
theorem same_place_iff (joins : m.Joins cast e) : e.source = e.target ↔ m.isSelf = true := by
  obtain ⟨_, sourceName⟩ := indexOf_spec joins.source
  obtain ⟨_, targetName⟩ := indexOf_spec joins.target
  simp only [isSelf, beq_iff_eq]
  constructor
  · intro same
    rw [← sourceName, ← targetName]
    simp only [same]
  · intro same
    have found := joins.source
    rw [same, joins.target] at found
    exact (Option.some.inj found).symm

end Message.Joins

theorem Message.ends_eq_ok :
    m.ends cast index = .ok e ↔ m.rightward = none ∧ m.Joins cast e := by
  unfold Message.ends
  by_cases resolved : m.rightward.isSome
  · have known : m.rightward ≠ none := Option.isSome_iff_ne_none.mp resolved
    simp [resolved, known]
  · have unknown : m.rightward = none := by simpa using resolved
    rw [if_neg resolved]
    constructor
    · intro ran
      split at ran
      · cases ran
      · cases ran
      · rename_i source target sourceFound targetFound
        cases ran
        exact ⟨unknown, sourceFound, targetFound⟩
    · rintro ⟨_, source, target⟩
      rw [source, target]

/-- All messages find their places, or the diagram is refused. -/
theorem resolve_ends_eq_ok : resolveEnds d = .ok ends ↔
    List.Forall₂ (fun m e => m.rightward = none ∧ m.Joins d.cast e) d.messages ends := by
  rw [resolveEnds, Attempt.mapM_eq_ok_iff]
  conv_rhs => rw [← List.zipIdx_map_fst 0 d.messages, List.forall₂_map_left_iff]
  simp only [Message.ends_eq_ok]

namespace Layout

/-- The actor with its header's shape, wherever the header will stand. -/
def unplaced (measure : Measure) (page : Page) (a : Actor) : Actor :=
  { a with slot := { width := headerWidth measure page a.name, top := page.gutter,
                     height := page.lineHeight } }

theorem anywhere_placeHeaders (actors : List Actor) (left : Nat) :
    (placeHeaders measure page left actors).map Actor.anywhere = actors.map (unplaced measure page) := by
  induction actors generalizing left with
  | nil => rfl
  | cons a rest ih =>
    simp only [placeHeaders, List.map_cons, ih]
    rfl

theorem length_placeHeaders (actors : List Actor) (left : Nat) :
    (placeHeaders measure page left actors).length = actors.length := by
  have same : (placeHeaders measure page left actors).map Actor.anywhere = _ := anywhere_placeHeaders _ _
  simpa using congrArg List.length same

private theorem left_le_of_mem_placeHeaders {a : Actor} {actors : List Actor} {left : Nat}
    (member : a ∈ placeHeaders measure page left actors) : left ≤ a.slot.left := by
  induction actors generalizing left with
  | nil => cases member
  | cons first rest ih =>
    rcases List.mem_cons.mp member with rfl | member
    · exact Nat.le_refl _
    · have bound := ih member
      omega

theorem side_by_side_placeHeaders (actors : List Actor) (left : Nat) :
    SideBySide page.gutter (placeHeaders measure page left actors) := by
  induction actors generalizing left with
  | nil => exact .nil
  | cons a rest ih => exact .cons (fun _ member => left_le_of_mem_placeHeaders member) (ih _)

theorem grantAll_append (row : List Actor) (first second : List (Nat × Demand)) :
    grantAll row (first ++ second) = grantAll (grantAll row first) second := List.foldl_append

theorem side_by_side_grantAll {row : List Actor} (demands : List (Nat × Demand))
    (side : SideBySide gutter row) : SideBySide gutter (grantAll row demands) := by
  induction demands generalizing row with
  | nil => exact side
  | cons demand rest ih => exact ih (demand.2.side_by_side_grant side)

theorem row_after_zero :
    rowAfter measure page d ends 0 = placeHeaders measure page page.gutter d.cast.actors := rfl

private theorem turns_take (d : Diagram) (ends : List Ends) (count : Nat) :
    (d.messages.take count).zip (ends.take count) = (d.messages.zip ends).take count := by
  rw [List.zip_eq_zipWith, List.zip_eq_zipWith, List.take_zipWith]

theorem row_after_all (long : d.messages.length ≤ count) :
    rowAfter measure page d ends count =
      grantAll (placeHeaders measure page page.gutter d.cast.actors) (demands measure d ends) := by
  have whole : (d.messages.zip ends).take count = d.messages.zip ends :=
    List.take_of_length_le (by simp; omega)
  simp only [rowAfter, demands, turns_take, whole]

/-- A turn adds what its message demands to the demands before it. -/
theorem demands_succ (message : d.messages[count]? = some m) (places : ends[count]? = some e) :
    demands measure { d with messages := d.messages.take (count + 1) } (ends.take (count + 1)) =
      demands measure { d with messages := d.messages.take count } (ends.take count) ++
        ((m.demand? measure (d.cast.size - 1) e).map (count, ·)).toList := by
  obtain ⟨short, rfl⟩ := List.getElem?_eq_some_iff.mp message
  obtain ⟨shortEnds, rfl⟩ := List.getElem?_eq_some_iff.mp places
  have turn : count < (d.messages.zip ends).length := by simp; omega
  have earlier : 0 + ((d.messages.zip ends).take count).length = count := by
    rw [Nat.zero_add, List.length_take_of_le (Nat.le_of_lt turn)]
  simp only [demands, turns_take, List.take_succ_eq_append_getElem turn, List.getElem_zip, List.zipIdx_append,
    List.filterMap_append, List.zipIdx_singleton, earlier]
  cases demanded : (d.messages[count]).demand? measure (d.cast.size - 1) ends[count] <;> simp [demanded]

/-- A turn grants what its message demands. -/
theorem row_after_succ (message : d.messages[count]? = some m) (places : ends[count]? = some e) :
    rowAfter measure page d ends (count + 1) =
      ((m.demand? measure (d.cast.size - 1) e).elim id Demand.grant) (rowAfter measure page d ends count) := by
  rw [rowAfter, demands_succ message places, grantAll_append, ← rowAfter]
  cases m.demand? measure (d.cast.size - 1) e <;> rfl

theorem row_after_succ_of_none (past : (d.messages.zip ends).length ≤ count) :
    rowAfter measure page d ends (count + 1) = rowAfter measure page d ends count := by
  simp only [rowAfter, demands, turns_take, List.take_of_length_le past,
    List.take_of_length_le (Nat.le_succ_of_le past)]

/-- A turn is that of a message whose places are known, or all turns are over. -/
theorem turn_or_past (d : Diagram) (ends : List Ends) (turn : Nat) :
    (∃ m e, d.messages[turn]? = some m ∧ ends[turn]? = some e) ∨ (d.messages.zip ends).length ≤ turn := by
  rcases Nat.lt_or_ge turn (d.messages.zip ends).length with inside | past
  · rw [List.length_zip] at inside
    exact .inl ⟨_, _, List.getElem?_eq_getElem (by omega), List.getElem?_eq_getElem (by omega)⟩
  · exact .inr past

/-- What holds of the placed headers and is kept by the demand of each message, on
the row as its turn finds it, holds of the row after any number of turns. -/
theorem row_after_induction {P : List Actor → Prop}
    (start : P (placeHeaders measure page page.gutter d.cast.actors))
    (keeps : ∀ turn m e demand, d.messages[turn]? = some m → ends[turn]? = some e →
      m.demand? measure (d.cast.size - 1) e = some demand → P (rowAfter measure page d ends turn) →
      P (demand.grant (rowAfter measure page d ends turn))) (count : Nat) :
    P (rowAfter measure page d ends count) := by
  induction count with
  | zero => exact start
  | succ turn ih =>
    rcases turn_or_past d ends turn with ⟨m, e, message, places⟩ | past
    · rw [row_after_succ message places]
      cases demanded : m.demand? measure (d.cast.size - 1) e with
      | none => exact ih
      | some demand => exact keeps turn m e demand message places demanded ih
    · exact (row_after_succ_of_none past).symm ▸ ih

theorem side_by_side_row_after : SideBySide page.gutter (rowAfter measure page d ends count) :=
  side_by_side_grantAll _ (side_by_side_placeHeaders _ _)

/-- No turn takes back room that an earlier one left. -/
theorem row_after_widens (order : count ≤ later) :
    Widens (rowAfter measure page d ends count) (rowAfter measure page d ends later) := by
  induction order with
  | refl => exact .refl _
  | @step turn _ ih =>
    apply ih.trans
    rcases turn_or_past d ends turn with ⟨m, e, message, places⟩ | past
    · rw [row_after_succ message places]
      cases m.demand? measure (d.cast.size - 1) e with
      | none => exact .refl _
      | some demand => exact demand.grant_widens _
    · exact row_after_succ_of_none past ▸ .refl _

theorem anywhere_row_after :
    (rowAfter measure page d ends count).map Actor.anywhere = d.cast.actors.map (unplaced measure page) :=
  (row_after_widens (Nat.zero_le count)).same.trans (anywhere_placeHeaders _ _)

theorem length_row_after : (rowAfter measure page d ends count).length = d.cast.size := by
  have same : (rowAfter measure page d ends count).map Actor.anywhere = _ := anywhere_row_after
  simpa [Cast.size] using congrArg List.length same

/-- What an arranged diagram is: the places of its messages, its row after all
turns, and everything else as it was. -/
structure Arranged (measure : Measure) (page : Page) (d : Diagram) (ends : List Ends)
    (arranged : Diagram) (outcome : Outcome) : Prop where
  places : List.Forall₂ (fun m e => m.rightward = none ∧ m.Joins d.cast e) d.messages ends
  row : arranged.cast.actors = rowAfter measure page d ends d.messages.length
  messages : arranged.messages = d.messages.zipWith Message.resolve ends
  lineCount : arranged.lineCount = d.lineCount
  headerOffset : outcome.headerOffset = headerOffset arranged.cast.actors

theorem arranged_of_ok (peopled : d.cast.isEmpty = false)
    (done : arrange measure page d = .ok (arranged, outcome)) :
    ∃ ends, Arranged measure page d ends arranged outcome := by
  rw [arrange, peopled] at done
  cases resolved : resolveEnds d with
  | error e => simp [resolved] at done
  | ok ends =>
    simp only [resolved, Bool.false_eq_true, if_false] at done
    cases done
    exact ⟨ends, resolve_ends_eq_ok.mp resolved, (row_after_all (Nat.le_refl _)).symm, rfl, rfl, rfl⟩

/-- Messages that are all open and among the actors find their places. -/
theorem resolve_ends_succeeds (places : ∀ m ∈ d.messages, m.rightward = none ∧ ∃ e, m.Joins d.cast e) :
    ∃ ends, resolveEnds d = .ok ends := by
  apply Attempt.mapM_succeeds
  rintro ⟨m, index⟩ member
  obtain ⟨unknown, e, joins⟩ := places m (List.fst_mem_of_mem_zipIdx member)
  exact ⟨e, Message.ends_eq_ok.mpr ⟨unknown, joins⟩⟩

/-- A diagram whose messages are all open and among its actors is arranged. -/
theorem arrange_succeeds
    (places : ∀ m ∈ d.messages, m.rightward = none ∧ ∃ e, m.Joins d.cast e) :
    ∃ arranged outcome, arrange measure page d = .ok (arranged, outcome) := by
  obtain ⟨ends, resolved⟩ := resolve_ends_succeeds places
  rw [arrange, resolved]
  split
  · exact ⟨_, _, rfl⟩
  · exact ⟨_, _, rfl⟩

namespace Arranged

variable (result : Arranged measure page d ends arranged outcome)
include result

theorem side_by_side : SideBySide page.gutter arranged.cast.actors :=
  result.row ▸ side_by_side_row_after

/-- Nothing of an actor but its header's place follows from the messages. -/
theorem anywhere : arranged.cast.actors.map Actor.anywhere = d.cast.actors.map (unplaced measure page) :=
  result.row ▸ anywhere_row_after

theorem names_eq : arranged.cast.names = d.cast.names := by
  have names := congrArg (List.map Actor.name) result.anywhere
  rw [List.map_map, List.map_map] at names
  exact names

theorem indexOf_eq (name : Text) : arranged.cast.indexOf? name = d.cast.indexOf? name := by
  have search (c : Cast) : c.indexOf? name = c.names.findIdx? (· == name) := by
    rw [Cast.names, List.findIdx?_map]
    rfl
  rw [search, search, result.names_eq]

theorem places_at {turn : Nat} (message : d.messages[turn]? = some m) :
    ∃ e, ends[turn]? = some e ∧ m.rightward = none ∧ m.Joins d.cast e := by
  obtain ⟨inside, rfl⟩ := List.getElem?_eq_some_iff.mp message
  have insideEnds : turn < ends.length := result.places.length_eq ▸ inside
  exact ⟨ends[turn], List.getElem?_eq_getElem insideEnds, result.places.get inside insideEnds⟩

theorem length_messages : arranged.messages.length = d.messages.length := by
  rw [result.messages, List.length_zipWith, result.places.length_eq, Nat.min_self]

/-- A layout adds to the messages nothing but their directions. -/
theorem undirected_messages :
    arranged.messages.map (fun m => { m with rightward := none }) = d.messages := by
  apply List.ext_getElem
  · rw [List.length_map, result.length_messages]
  · intro turn _ inside
    obtain ⟨_, _, unknown, _⟩ := result.places_at (List.getElem?_eq_getElem inside)
    simp only [List.getElem_map, result.messages, List.getElem_zipWith, Message.resolve, ← unknown]

/-- A layout leaves no message open. -/
theorem directed_messages (member : m ∈ arranged.messages) : m.rightward ≠ none := by
  rw [result.messages, ← List.map_uncurry_zip_eq_zipWith] at member
  obtain ⟨_, _, rfl⟩ := List.mem_map.mp member
  exact Option.some_ne_none _

theorem joins_iff : m.Joins arranged.cast e ↔ m.Joins d.cast e := by
  constructor <;> rintro ⟨source, target⟩
  · exact ⟨result.indexOf_eq _ ▸ source, result.indexOf_eq _ ▸ target⟩
  · exact ⟨(result.indexOf_eq _).trans source, (result.indexOf_eq _).trans target⟩

end Arranged

end Layout

end SequenceDiagram
