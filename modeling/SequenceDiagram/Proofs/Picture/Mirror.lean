import SequenceDiagram.Proofs.Picture.Placement

/-! Two ends of a message. A message between two actors can be told from either end:
the actors change places and the arrow is turned. The layout looks at the places of a
message's actors in order and at the direction that arrow and order make together, the
painter at the lifelines in order and at that direction; so neither can tell which end
a message was told from. -/
namespace SequenceDiagram
open Layout

variable {measure : Measure} {page : Page} {style : Style} {d arranged : Diagram} {outcome : Outcome}
  {ends : List Ends} {cast : Cast} {m : Message} {e : Ends} {p q : PlacedMessage} {placed : List PlacedMessage}
  {chosen : Nat → Bool} {row index boxReach headerOffset last turn : Nat}

/-- The message told from its other end, if it has one and this is wanted. -/
def Message.mirrorIf (wanted : Bool) (m : Message) : Message := if wanted && !m.isSelf then m.mirror else m

/-- The diagram with some messages told from their other ends. Messages that an actor
sends to itself stay as they are. -/
def Diagram.mirrorWhere (chosen : Nat → Bool) (d : Diagram) : Diagram :=
  { d with messages := d.messages.mapIdx fun index m => m.mirrorIf (chosen index) }

/-- The places of a message told from its other end. -/
def Ends.swapIf (wanted : Bool) (e : Ends) : Ends := if wanted then { source := e.target, target := e.source } else e

/-! ### Layout -/

namespace Message

theorem isSelf_mirror (m : Message) : m.mirror.isSelf = m.isSelf := by
  rw [isSelf, isSelf, mirror, Bool.beq_comm]

theorem mirrorIf_of_kept {wanted : Bool} (kept : (wanted && !m.isSelf) = false) : m.mirrorIf wanted = m :=
  if_neg (by simp [kept])

theorem mirrorIf_of_turned {wanted : Bool} (turned : (wanted && !m.isSelf) = true) :
    m.mirrorIf wanted = m.mirror :=
  if_pos turned

theorem rightward_mirrorIf (wanted : Bool) : (m.mirrorIf wanted).rightward = m.rightward := by
  rw [mirrorIf]
  split <;> rfl

/-- A message is told from its other end together with its places. For a message to
oneself the places are one and the same, so they do not change either. -/
theorem Joins.kept_or_turned (joins : m.Joins cast e) (wanted : Bool) :
    ((wanted && !m.isSelf) = false ∧ e.swapIf wanted = e) ∨
      ((wanted && !m.isSelf) = true ∧ e.source ≠ e.target ∧ e.swapIf wanted = ⟨e.target, e.source⟩) := by
  have places := joins.same_place_iff
  obtain ⟨source, target⟩ := e
  cases wanted with
  | false => exact .inl ⟨rfl, rfl⟩
  | true =>
    cases self : m.isSelf with
    | true =>
      have same : source = target := places.mpr self
      exact .inl ⟨rfl, by simp [Ends.swapIf, same]⟩
    | false =>
      have apart : source ≠ target := by simpa [self] using places
      exact .inr ⟨rfl, apart, rfl⟩

theorem Joins.mirrorIf (joins : m.Joins cast e) (wanted : Bool) :
    (m.mirrorIf wanted).Joins cast (e.swapIf wanted) := by
  rcases joins.kept_or_turned wanted with ⟨kept, still⟩ | ⟨turned, -, swapped⟩
  · rwa [mirrorIf_of_kept kept, still]
  · rw [mirrorIf_of_turned turned, swapped]
    exact ⟨joins.target, joins.source⟩

/-- Both tellings of a message ask for the same room. -/
theorem Joins.demand?_mirrorIf (joins : m.Joins cast e) (wanted : Bool) :
    (m.mirrorIf wanted).demand? measure last (e.swapIf wanted) = m.demand? measure last e := by
  rcases joins.kept_or_turned wanted with ⟨kept, still⟩ | ⟨turned, -, swapped⟩
  · rw [mirrorIf_of_kept kept, still]
  · rw [mirrorIf_of_turned turned, swapped]
    simp only [demand?, isSelf_mirror, Nat.min_comm e.target, Nat.max_comm e.target]
    rfl

/-- Both tellings of a message run in the same direction: the arrow turns and so does
the order of its ends. -/
theorem Joins.resolve_mirrorIf (joins : m.Joins cast e) (wanted : Bool) :
    (m.mirrorIf wanted).resolve (e.swapIf wanted) = (m.resolve e).mirrorIf wanted := by
  rcases joins.kept_or_turned wanted with ⟨kept, still⟩ | ⟨turned, apart, swapped⟩
  · rw [mirrorIf_of_kept kept, still]
    exact (mirrorIf_of_kept (m := m.resolve e) kept).symm
  · rw [mirrorIf_of_turned turned, swapped]
    refine Eq.trans ?_ (mirrorIf_of_turned (m := m.resolve e) turned).symm
    have order : decide (e.target < e.source) = !decide (e.source < e.target) := by
      rw [← decide_not, decide_eq_decide]
      omega
    simp [resolve, mirror, Arrow.mirror, order]

end Message

theorem filterMap_zipIdx_congr {α β : Type} {as bs : List α} {f : α × Nat → Option β}
    (long : as.length = bs.length)
    (each : ∀ index (inside : index < as.length) (also : index < bs.length),
      f (as[index], index) = f (bs[index], index)) :
    as.zipIdx.filterMap f = bs.zipIdx.filterMap f := by
  have maps : as.zipIdx.map f = bs.zipIdx.map f := List.ext_getElem (by simpa using long) (by simpa using each)
  simpa only [List.filterMap_map, Function.id_comp] using congrArg (List.filterMap id) maps

/-- The places of the messages of a diagram, told as its messages are. -/
def swapWhere (chosen : Nat → Bool) (ends : List Ends) : List Ends :=
  ends.mapIdx fun index e => e.swapIf (chosen index)

section Places

variable (places : List.Forall₂ (fun m e => m.rightward = none ∧ m.Joins d.cast e) d.messages ends)
include places

theorem joins_at (inside : turn < d.messages.length) (also : turn < ends.length) :
    d.messages[turn].rightward = none ∧ d.messages[turn].Joins d.cast ends[turn] :=
  (List.forall₂_iff_get.mp places).2 turn inside also

theorem resolveEnds_mirrorWhere : resolveEnds (d.mirrorWhere chosen) = .ok (swapWhere chosen ends) := by
  refine resolve_ends_eq_ok.mpr (List.forall₂_iff_get.mpr ⟨?_, ?_⟩)
  · simpa [Diagram.mirrorWhere, swapWhere] using places.length_eq
  · intro turn inside also
    simp only [List.get_eq_getElem, Diagram.mirrorWhere, swapWhere, List.getElem_mapIdx,
      Message.rightward_mirrorIf]
    simp only [Diagram.mirrorWhere, swapWhere, List.length_mapIdx] at inside also
    obtain ⟨unknown, joins⟩ := joins_at places inside also
    exact ⟨unknown, joins.mirrorIf (chosen turn)⟩

theorem demands_mirrorWhere :
    demands measure (d.mirrorWhere chosen) (swapWhere chosen ends) = demands measure d ends := by
  apply filterMap_zipIdx_congr
  · simp [Diagram.mirrorWhere, swapWhere]
  · intro turn inside also
    simp only [Diagram.mirrorWhere, swapWhere, List.getElem_zip, List.getElem_mapIdx]
    rw [List.length_zip] at also
    rw [(joins_at places (by omega) (by omega)).2.demand?_mirrorIf]

theorem resolve_mirrorWhere : (d.mirrorWhere chosen).messages.zipWith Message.resolve (swapWhere chosen ends) =
    (d.messages.zipWith Message.resolve ends).mapIdx fun index m => m.mirrorIf (chosen index) := by
  apply List.ext_getElem
  · simp [Diagram.mirrorWhere, swapWhere]
  · intro turn inside also
    simp only [Diagram.mirrorWhere, swapWhere, List.getElem_zipWith, List.getElem_mapIdx]
    rw [List.length_mapIdx, List.length_zipWith] at also
    exact (joins_at places (by omega) (by omega)).2.resolve_mirrorIf (chosen turn)

end Places

/-- The layout of the retold diagram is that of the diagram, message by message told
from the chosen end. -/
theorem arrange_mirrorWhere (resolved : resolveEnds d = .ok ends)
    (done : arrange measure page d = .ok (arranged, outcome)) :
    arrange measure page (d.mirrorWhere chosen) = .ok (arranged.mirrorWhere chosen, outcome) := by
  have places := resolve_ends_eq_ok.mp resolved
  have cast : (d.mirrorWhere chosen).cast = d.cast := rfl
  rw [arrange, resolved] at done
  rw [arrange, resolveEnds_mirrorWhere places, cast]
  split at done
  · rename_i deserted
    cases done
    exact if_pos deserted
  · rename_i peopled
    cases done
    simp only [if_neg peopled, demands_mirrorWhere places, resolve_mirrorWhere places]
    rfl

/-! ### Painting -/

/-- A placed message told from its other end. The lifeline next to its source is
another one then. -/
def PlacedMessage.mirror (p : PlacedMessage) (next? : Option Nat) : PlacedMessage :=
  { p with message := p.message.mirror, source := p.target, target := p.source, next? }

theorem Shape.ofMessage_mirror (other : p.message.isSelf = false) (next? : Option Nat) :
    ofMessage boxReach (p.mirror next?) = ofMessage boxReach p := by
  have otherToo : p.message.mirror.isSelf = false := p.message.isSelf_mirror.trans other
  simp only [ofMessage, PlacedMessage.mirror, other, otherToo, Bool.false_eq_true, if_false, ofBar,
    Nat.min_comm p.target, Nat.max_comm p.target]
  rfl

theorem PlacedMessage.stop_mirror (other : p.message.isSelf = false) (next? : Option Nat) :
    (p.mirror next?).stop boxReach = p.stop boxReach := by
  have otherToo : p.message.mirror.isSelf = false := p.message.isSelf_mirror.trans other
  simp only [stop, mirror, other, otherToo, Bool.false_eq_true, if_false, Nat.min_comm p.target,
    Nat.max_comm p.target]
  rfl

theorem map_eq_of_alike {α β : Type} {f : α → β} {as bs : List α}
    (alike : List.Forall₂ (fun a b => f b = f a) as bs) : bs.map f = as.map f := by
  induction alike with
  | nil => rfl
  | cons same _ ih => rw [List.map_cons, List.map_cons, same, ih]

namespace Picture

/-- Both tellings of a message are drawn alike. -/
theorem place_mirrorIf (wanted : Bool) (done : place cast row index m = .ok p) :
    ∃ q, place cast row index (m.mirrorIf wanted) = .ok q ∧ ∀ boxReach,
      Shape.ofMessage boxReach q = Shape.ofMessage boxReach p ∧ q.stop boxReach = p.stop boxReach := by
  cases turned : wanted && !m.isSelf with
  | false => exact ⟨p, by rwa [Message.mirrorIf_of_kept turned], fun _ => ⟨rfl, rfl⟩⟩
  | true =>
    have other : m.isSelf = false := by
      rw [Bool.and_eq_true, Bool.not_eq_true'] at turned
      exact turned.2
    rw [Message.mirrorIf_of_turned turned]
    rw [place] at done
    split at done
    · cases done
    · cases done
    · cases done
    · rename_i rightward source target directed sourceFound targetFound
      cases done
      let next? := (cast.indexOf? m.target).bind fun place => cast.get? (place + 1)
      refine ⟨_, ?_, fun boxReach => ⟨Shape.ofMessage_mirror other (next?.map Actor.mid),
        PlacedMessage.stop_mirror other (next?.map Actor.mid)⟩⟩
      have direction : m.mirror.rightward = some rightward := directed
      have mirrorSource : cast.find? m.mirror.source = some target := targetFound
      have mirrorTarget : cast.find? m.mirror.target = some source := sourceFound
      rw [place]
      simp only [direction, mirrorSource, mirrorTarget]
      rfl

/-- A diagram whose messages can be placed has one picture, or one error, from whichever
ends they are told. -/
theorem paint_mirrorWhere (all : placeAll d headerOffset style = .ok placed) :
    paint style headerOffset (d.mirrorWhere chosen) = paint style headerOffset d := by
  have retold : List.Forall₂ (fun a b => b = (a.1.mirrorIf (chosen a.2), a.2))
      d.messages.zipIdx (d.mirrorWhere chosen).messages.zipIdx := by
    rw [List.forall₂_iff_get]
    simp [Diagram.mirrorWhere]
  obtain ⟨others, allOthers, alike⟩ : ∃ others, placeAll (d.mirrorWhere chosen) headerOffset style = .ok others ∧
      List.Forall₂ (fun p q => ∀ boxReach,
        Shape.ofMessage boxReach q = Shape.ofMessage boxReach p ∧ q.stop boxReach = p.stop boxReach) placed others := by
    refine Attempt.mapM_follows ?_ retold all
    rintro ⟨m, index⟩ _ p rfl done
    exact place_mirrorIf (chosen index) done
  have stops : others.map (·.stop style.boxReach) = placed.map (·.stop style.boxReach) :=
    map_eq_of_alike (alike.imp fun p q same => (same style.boxReach).2)
  have drawn : others.map (Shape.ofMessage style.boxReach) = placed.map (Shape.ofMessage style.boxReach) :=
    map_eq_of_alike (alike.imp fun p q same => (same style.boxReach).1)
  have cast : (d.mirrorWhere chosen).cast = d.cast := rfl
  have lineCount : (d.mirrorWhere chosen).lineCount = d.lineCount := rfl
  simp only [paint, allOthers, all, canvas, stop, shapes, List.flatMap, cast, lineCount, stops, drawn]

end Picture

/-- The two ends of a message are alike. Telling any messages between two actors from
their other ends changes neither the outcome of the layout nor a place nor a
direction, and the picture, or the error in its place, is the same. -/
theorem mirrored_messages_draw_alike (measure : Measure) (page : Page) (style : Style) (d : Diagram)
    (chosen : Nat → Bool)
    (unresolved : ∀ m ∈ d.messages, m.rightward = none ∧ m.source ∈ d.cast.names ∧ m.target ∈ d.cast.names) :
    ∃ arranged outcome, arrange measure page d = .ok (arranged, outcome) ∧
      ∃ mirrored, arrange measure page (d.mirrorWhere chosen) = .ok (mirrored, outcome) ∧
        mirrored.cast = arranged.cast ∧ mirrored.lineCount = arranged.lineCount ∧
        (∀ turn, mirrored.messages[turn]? = arranged.messages[turn]?.map fun m =>
          if chosen turn && !m.isSelf then m.mirror else m) ∧
        mirrored.messages.map (·.rightward) = arranged.messages.map (·.rightward) ∧
        Picture.paint style outcome.headerOffset mirrored = Picture.paint style outcome.headerOffset arranged := by
  have places : ∀ m ∈ d.messages, m.rightward = none ∧ ∃ e, m.Joins d.cast e := fun m member =>
    ⟨(unresolved m member).1, Message.Joins.of_names (unresolved m member).2.1 (unresolved m member).2.2⟩
  obtain ⟨ends, resolved⟩ := resolve_ends_succeeds places
  have succeeds : ∃ arranged outcome, Layout.arrange measure page d = .ok (arranged, outcome) :=
    arrange_succeeds places
  obtain ⟨arranged, outcome, done⟩ := succeeds
  refine ⟨arranged, outcome, done, arranged.mirrorWhere chosen, arrange_mirrorWhere resolved done, rfl, rfl, ?_, ?_, ?_⟩
  · intro turn
    exact List.getElem?_mapIdx
  · apply List.ext_getElem
    · simp [Diagram.mirrorWhere]
    · intro turn _ _
      simp only [Diagram.mirrorWhere, List.getElem_map, List.getElem_mapIdx, Message.rightward_mirrorIf]
  · cases deserted : d.cast.isEmpty with
    | false =>
      obtain ⟨_, result⟩ := arranged_of_ok deserted done
      obtain ⟨placed, all⟩ := result.can_be_placed style outcome.headerOffset
      exact Picture.paint_mirrorWhere all
    | true =>
      rw [arrange, if_pos deserted] at done
      cases done
      exact (if_pos deserted).trans (if_pos deserted).symm

/-- A message each way between neighbours, one past an actor in between, and one that
an actor sends to itself. -/
def allWays : Diagram where
  cast := ⟨[{ name := ['A'] }, { name := ['B'] }, { name := ['C'] }]⟩
  messages := [
    { arrow := ⟨.thin, false⟩, source := ['A'], target := ['B'], label := ['x'] },
    { arrow := ⟨.thick, true⟩, source := ['B'], target := ['B'], label := List.replicate 20 'y' },
    { arrow := ⟨.thick, true⟩, source := ['A'], target := ['C'], label := List.replicate 40 'z' },
    { arrow := ⟨.thin, true⟩, source := ['C'], target := ['B'], label := [] }]
  lineCount := 4

theorem mirrored_messages_draw_alike_all_ways :
    (∀ m ∈ allWays.messages, m.rightward = none ∧ m.source ∈ allWays.cast.names ∧ m.target ∈ allWays.cast.names) ∧
    (allWays.mirrorWhere (· != 0)).messages.map Message.source = [['A'], ['B'], ['C'], ['B']] ∧
    ∃ arranged mirrored outcome, arrange (.terminal 1) (.terminal 80) allWays = .ok (arranged, outcome) ∧
      arrange (.terminal 1) (.terminal 80) (allWays.mirrorWhere (· != 0)) = .ok (mirrored, outcome) ∧
      Picture.paint {} outcome.headerOffset mirrored = Picture.paint {} outcome.headerOffset arranged := by
  have unresolved : ∀ m ∈ allWays.messages,
      m.rightward = none ∧ m.source ∈ allWays.cast.names ∧ m.target ∈ allWays.cast.names := by
    decide
  obtain ⟨arranged, outcome, done, mirrored, also, _, _, _, _, painted⟩ :=
    mirrored_messages_draw_alike (.terminal 1) (.terminal 80) {} allWays (· != 0) unresolved
  exact ⟨unresolved, by decide, arranged, mirrored, outcome, done, also, painted⟩

end SequenceDiagram
