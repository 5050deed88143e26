import SequenceDiagram.Picture.Paint
import SequenceDiagram.Proofs.Layout.LabelRoom
import SequenceDiagram.Proofs.Reading.Diagram

/-! From a read text to placed messages. Reading, arranging and placing hand over
without a refusal: a diagram that was read can be arranged, one that was arranged
can be placed, and every message then stands on the lifelines of its own actors,
at the row of its own line, with the room that its label asked for. -/
namespace SequenceDiagram
open Layout

variable {measure : Measure} {page : Page} {style : Style} {d arranged : Diagram} {outcome : Outcome}
  {ends : List Ends} {cast : Cast} {m : Message} {e : Ends} {p : PlacedMessage}
  {placed : List PlacedMessage} {row index headerOffset turn : Nat}

/-- The actor of a name is the one at the place of that name. -/
theorem find_of_indexOf {name : Text} {place : Nat} (found : cast.indexOf? name = some place) :
    ∃ inside : place < cast.actors.length, cast.find? name = some cast.actors[place] := by
  obtain ⟨inside, named, earlier⟩ := List.findIdx?_eq_some_iff_getElem.mp found
  refine ⟨inside, List.find?_eq_some_iff_getElem.mpr ⟨named, place, inside, rfl, ?_⟩⟩
  intro i before
  simpa using earlier i before

theorem find_isSome_eq {name : Text} : (cast.find? name).isSome = (cast.indexOf? name).isSome := by
  rw [Bool.eq_iff_iff, Cast.find?, Cast.indexOf?, List.find?_isSome, List.findIdx?_isSome, List.any_eq_true]

namespace Message.Joins

theorem of_names (source : m.source ∈ cast.names) (target : m.target ∈ cast.names) :
    ∃ e, m.Joins cast e := by
  obtain ⟨sourcePlace, sourceFound⟩ := indexOf_of_mem_names source
  obtain ⟨targetPlace, targetFound⟩ := indexOf_of_mem_names target
  exact ⟨⟨sourcePlace, targetPlace⟩, sourceFound, targetFound⟩

end Message.Joins

/-- The message stands on the lifelines of its actors. -/
structure PlacedMessage.OnLifelines (p : PlacedMessage) (cast : Cast) (e : Ends) : Prop where
  joins : p.message.Joins cast e
  source : p.source = midAt cast.actors e.source
  target : p.target = midAt cast.actors e.target
  next : p.next? = cast.actors[e.source + 1]?.map Actor.mid

/-- The message stands on its lifelines, with its room, at the row of a line of
the text. -/
structure PlacedMessage.Settled (p : PlacedMessage) (measure : Measure) (style : Style)
    (headerOffset : Nat) (d : Diagram) (e : Ends) : Prop extends p.OnLifelines d.cast e where
  room : p.message.HasRoom measure d.cast.actors e
  row : ∃ line, 1 ≤ line ∧ line ≤ d.lineCount ∧ p.row = Picture.rowOf headerOffset style line

namespace Picture

theorem on_lifelines_of_place (done : place cast row index m = .ok p) :
    p.message = m ∧ p.row = row ∧ ∃ e, p.OnLifelines cast e := by
  rw [place] at done
  split at done
  · cases done
  · cases done
  · cases done
  · rename_i rightward source target _ sourceFound targetFound
    cases done
    have someSource : (cast.indexOf? m.source).isSome := by rw [← find_isSome_eq, sourceFound]; rfl
    have someTarget : (cast.indexOf? m.target).isSome := by rw [← find_isSome_eq, targetFound]; rfl
    obtain ⟨sourcePlace, sourceAt⟩ := Option.isSome_iff_exists.mp someSource
    obtain ⟨targetPlace, targetAt⟩ := Option.isSome_iff_exists.mp someTarget
    obtain ⟨sourceInside, sourceHeld⟩ := find_of_indexOf sourceAt
    obtain ⟨targetInside, targetHeld⟩ := find_of_indexOf targetAt
    rw [sourceFound, Option.some.injEq] at sourceHeld
    rw [targetFound, Option.some.injEq] at targetHeld
    refine ⟨rfl, rfl, ⟨sourcePlace, targetPlace⟩, ⟨sourceAt, targetAt⟩, ?_, ?_, ?_⟩
    · simp only [sourceHeld, midAt_eq_mid sourceInside]
    · simp only [targetHeld, midAt_eq_mid targetInside]
    · simp only [sourceAt, Option.bind_some, Cast.get?]

/-- A message with a direction and two actors of the cast is placed. -/
theorem place_succeeds (directed : m.rightward.isSome) (joins : m.Joins cast e) :
    ∃ p, place cast row index m = .ok p := by
  obtain ⟨rightward, directed⟩ := Option.isSome_iff_exists.mp directed
  obtain ⟨_, source⟩ := find_of_indexOf joins.source
  obtain ⟨_, target⟩ := find_of_indexOf joins.target
  rw [place, directed, source, target]
  exact ⟨_, rfl⟩

theorem placeAll_eq_ok : placeAll d headerOffset style = .ok placed ↔
    d.messages.length = placed.length ∧ ∀ turn (inside : turn < d.messages.length)
      (insidePlaced : turn < placed.length),
      place d.cast (rowOf headerOffset style (turn + 1)) turn d.messages[turn] = .ok placed[turn] := by
  simp [placeAll, Attempt.mapM_eq_ok_iff, List.forall₂_iff_get]

theorem map_message_placed (done : placeAll d headerOffset style = .ok placed) :
    placed.map (·.message) = d.messages := by
  obtain ⟨long, each⟩ := placeAll_eq_ok.mp done
  apply List.ext_getElem
  · rw [List.length_map, long]
  · intro turn insidePlaced inside
    rw [List.length_map] at insidePlaced
    rw [List.getElem_map, (on_lifelines_of_place (each turn inside insidePlaced)).1]

end Picture

namespace Diagram.Complete

variable (complete : d.Complete)
include complete

theorem joins (member : m ∈ d.messages) : m.rightward = none ∧ ∃ e, m.Joins d.cast e := by
  obtain ⟨unknown, source, target⟩ := complete.messages m member
  exact ⟨unknown, Message.Joins.of_names source target⟩

/-- Where nobody takes part nothing is sent. -/
theorem messages_of_isEmpty (deserted : d.cast.isEmpty = true) : d.messages = [] := by
  have nobody : d.cast.names = [] := by rw [Cast.names, List.isEmpty_iff.mp deserted, List.map_nil]
  apply List.eq_nil_iff_forall_not_mem.mpr
  intro m member
  have source := (complete.messages m member).2.1
  rw [nobody] at source
  cases source

/-- Every diagram that was read is arranged, whatever the measure and the page. -/
theorem can_be_arranged (measure : Measure) (page : Page) : ∃ ends arranged outcome,
    arrange measure page d = .ok (arranged, outcome) ∧ Arranged measure page d ends arranged outcome := by
  have succeeds : ∃ arranged outcome, arrange measure page d = .ok (arranged, outcome) :=
    arrange_succeeds fun m member => complete.joins member
  obtain ⟨arranged, outcome, done⟩ := succeeds
  cases deserted : d.cast.isEmpty with
  | false =>
    obtain ⟨ends, result⟩ := arranged_of_ok deserted done
    exact ⟨ends, arranged, outcome, done, result⟩
  | true =>
    have silent := complete.messages_of_isEmpty deserted
    have nobody : d.cast.actors = [] := List.isEmpty_iff.mp deserted
    rw [arrange, if_pos deserted] at done
    cases done
    refine ⟨[], d, {}, by rw [arrange, if_pos deserted], ?_, ?_, ?_, rfl, ?_⟩
    · rw [silent]
      exact .nil
    · rw [silent, List.length_nil, row_after_zero, nobody]
      rfl
    · rw [silent]
      rfl
    · rw [nobody]
      rfl

end Diagram.Complete

namespace Layout.Arranged

variable (result : Arranged measure page d ends arranged outcome)
include result

/-- The message of a turn has its direction, its actors and its room. -/
theorem turn_settled (inside : turn < arranged.messages.length) :
    arranged.messages[turn].rightward.isSome ∧ ∃ e, arranged.messages[turn].Joins arranged.cast e ∧
      arranged.messages[turn].HasRoom measure arranged.cast.actors e := by
  have before : turn < d.messages.length := result.length_messages ▸ inside
  obtain ⟨e, place, _, joins⟩ := result.places_at (List.getElem?_eq_getElem before)
  obtain ⟨insideEnds, rfl⟩ := List.getElem?_eq_some_iff.mp place
  have room : d.messages[turn].HasRoom measure (rowAfter measure page d ends d.messages.length) ends[turn] :=
    room_from_turn (List.getElem?_eq_getElem before) place joins before
  have same : arranged.messages[turn] = d.messages[turn].resolve ends[turn] := by
    simp only [result.messages, List.getElem_zipWith]
  have joined := result.joins_iff.mpr joins
  rw [same, result.row]
  exact ⟨rfl, ends[turn], ⟨joined.source, joined.target⟩, ⟨room.between, room.beside⟩⟩

/-- Every message of an arranged diagram is placed. -/
theorem can_be_placed (style : Style) (headerOffset : Nat) :
    ∃ placed, Picture.placeAll arranged headerOffset style = .ok placed := by
  apply Attempt.mapM_succeeds
  rintro ⟨m, index⟩ member
  have found : arranged.messages[index]? = some m := List.mem_zipIdx_iff_getElem?.mp member
  obtain ⟨inside, rfl⟩ := List.getElem?_eq_some_iff.mp found
  obtain ⟨directed, e, joins, _⟩ := result.turn_settled inside
  exact Picture.place_succeeds directed joins

/-- The placed messages are those of the text, each with its direction. -/
theorem undirected_placed (done : Picture.placeAll arranged headerOffset style = .ok placed) :
    placed.map (fun p => { p.message with rightward := none }) = d.messages := by
  rw [← result.undirected_messages, ← Picture.map_message_placed done, List.map_map]
  rfl

theorem settled (complete : d.Complete)
    (done : Picture.placeAll arranged headerOffset style = .ok placed) (member : p ∈ placed) :
    ∃ e, p.Settled measure style headerOffset arranged e := by
  obtain ⟨long, each⟩ := Picture.placeAll_eq_ok.mp done
  obtain ⟨turn, inside, rfl⟩ := List.mem_iff_getElem.mp member
  obtain ⟨message, row, e, on⟩ := Picture.on_lifelines_of_place (each turn (long ▸ inside) inside)
  obtain ⟨_, other, joins, room⟩ := result.turn_settled (long ▸ inside)
  rw [← message] at joins room
  cases on.joins.unique joins
  refine ⟨e, on, room, turn + 1, Nat.le_add_left _ _, ?_, row⟩
  rw [result.lineCount, ← complete.lineCount, ← result.length_messages, long]
  exact inside

end Layout.Arranged

/-- A text that is read goes through arranging and placing. -/
theorem stages_of_parse {text : Text} (measure : Measure) (page : Page) (style : Style)
    (parsed : Diagram.parse text = .ok d) : d.Complete ∧ ∃ ends arranged outcome placed,
      arrange measure page d = .ok (arranged, outcome) ∧ Arranged measure page d ends arranged outcome ∧
        Picture.placeAll arranged outcome.headerOffset style = .ok placed := by
  have complete := Diagram.parse_complete parsed
  obtain ⟨ends, arranged, outcome, done, result⟩ := complete.can_be_arranged measure page
  obtain ⟨placed, all⟩ := result.can_be_placed style outcome.headerOffset
  exact ⟨complete, ends, arranged, outcome, placed, done, result, all⟩

end SequenceDiagram
