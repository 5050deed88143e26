import SequenceDiagram.Proofs.Layout.Headers
import SequenceDiagram.Proofs.Layout.InPlace

/-! Which diagrams a layout refuses, and what it makes of the others. The messages
are looked at in order, so it is the first bad one that is reported. A layout that
has a message to lay out is the last one: it leaves no message open for another. -/
namespace SequenceDiagram
open Layout

variable {measure : Measure} {page : Page} {d arranged : Diagram} {outcome : Outcome} {cast other : Cast}
  {m : Message} {index left : Nat} {e : LayoutError}

/-- Why a layout refuses a message. That it has a direction already comes first,
then that its source takes no part, then its target. -/
inductive Message.Refused (cast : Cast) (index : Nat) (m : Message) : LayoutError → Prop where
  | directed (resolved : m.rightward ≠ none) : Refused cast index m (.alreadyResolved index)
  | source (unknown : m.rightward = none) (stranger : m.source ∉ cast.names) :
    Refused cast index m (.unknownActor index m.source)
  | target (unknown : m.rightward = none) (known : m.source ∈ cast.names) (stranger : m.target ∉ cast.names) :
    Refused cast index m (.unknownActor index m.target)

/-- A message that a layout can take: its direction is open and both its actors
take part. -/
structure Message.Placeable (cast : Cast) (m : Message) : Prop where
  unknown : m.rightward = none
  source : m.source ∈ cast.names
  target : m.target ∈ cast.names

namespace Message

theorem ends_eq_error_iff : m.ends cast index = .error e ↔ m.Refused cast index e := by
  rw [ends]
  constructor
  · intro failed
    split at failed
    · rename_i resolved
      cases failed
      exact .directed (Option.isSome_iff_ne_none.mp resolved)
    · rename_i unresolved
      have unknown : m.rightward = none := by simpa using unresolved
      split at failed
      · rename_i sourceless
        cases failed
        exact .source unknown (indexOf_eq_none_iff.mp sourceless)
      · rename_i found targetless
        cases failed
        refine .target unknown ?_ (indexOf_eq_none_iff.mp targetless)
        by_contra stranger
        cases found.symm.trans (indexOf_eq_none_iff.mpr stranger)
      · cases failed
  · intro refused
    cases refused with
    | directed resolved => rw [if_pos (Option.isSome_iff_ne_none.mpr resolved)]
    | source unknown stranger =>
      rw [unknown, indexOf_eq_none_iff.mpr stranger]
      rfl
    | target unknown known stranger =>
      obtain ⟨place, found⟩ := indexOf_of_mem_names known
      rw [unknown, found, indexOf_eq_none_iff.mpr stranger]
      rfl

/-- A message is refused for one reason, or it can be taken. -/
theorem placeable_or_refused (cast : Cast) (index : Nat) (m : Message) :
    m.Placeable cast ∨ ∃ e, m.Refused cast index e := by
  by_cases unknown : m.rightward = none
  · by_cases source : m.source ∈ cast.names
    · by_cases target : m.target ∈ cast.names
      · exact .inl ⟨unknown, source, target⟩
      · exact .inr ⟨_, .target unknown source target⟩
    · exact .inr ⟨_, .source unknown source⟩
  · exact .inr ⟨_, .directed unknown⟩

theorem Refused.bad (refused : m.Refused cast index e) :
    m.rightward ≠ none ∨ m.source ∉ cast.names ∨ m.target ∉ cast.names := by
  cases refused with
  | directed resolved => exact .inl resolved
  | source _ stranger => exact .inr (.inl stranger)
  | target _ _ stranger => exact .inr (.inr stranger)

theorem Placeable.not_refused (placeable : m.Placeable cast) : ¬ m.Refused cast index e := by
  intro refused
  rcases refused.bad with known | stranger | stranger
  · exact known placeable.unknown
  · exact stranger placeable.source
  · exact stranger placeable.target

theorem placeable_iff_ends : m.Placeable cast ↔ ∃ ends, m.ends cast index = .ok ends := by
  constructor
  · intro placeable
    cases found : m.ends cast index with
    | ok ends => exact ⟨ends, rfl⟩
    | error e => exact absurd (ends_eq_error_iff.mp found) placeable.not_refused
  · rintro ⟨ends, found⟩
    rcases placeable_or_refused cast index m with placeable | ⟨e, refused⟩
    · exact placeable
    · cases found.symm.trans (ends_eq_error_iff.mpr refused)

end Message

namespace Layout

/-- A layout fails with the first message that cannot be taken. -/
theorem resolve_ends_eq_error : resolveEnds d = .error e ↔ ∃ index m, d.messages[index]? = some m ∧
    m.Refused d.cast index e ∧ ∀ earlier ∈ d.messages.take index, earlier.Placeable d.cast := by
  have before (index : Nat) : (∀ earlier ∈ d.messages.take index, earlier.Placeable d.cast) ↔
      ∀ earlier ∈ d.messages.zipIdx.take index, ∃ ends, earlier.1.ends d.cast earlier.2 = .ok ends := by
    conv_lhs => rw [← List.zipIdx_map_fst 0 d.messages, ← List.map_take]
    rw [List.forall_mem_map]
    exact forall₂_congr fun earlier _ => Message.placeable_iff_ends
  rw [resolveEnds, Attempt.mapM_eq_error_iff]
  constructor
  · rintro ⟨index, _, found, failed, others⟩
    obtain ⟨m, message, rfl⟩ := Option.map_eq_some_iff.mp (List.getElem?_zipIdx.symm.trans found)
    rw [Nat.zero_add] at failed
    exact ⟨index, m, message, Message.ends_eq_error_iff.mp failed, (before index).mpr others⟩
  · rintro ⟨index, m, message, refused, others⟩
    refine ⟨index, (m, index), ?_, Message.ends_eq_error_iff.mpr refused, (before index).mp others⟩
    rw [List.getElem?_zipIdx, message, Nat.zero_add]
    rfl

theorem placeable_of_resolve_ends {ends : List Ends} (resolved : resolveEnds d = .ok ends) :
    ∀ m ∈ d.messages, m.Placeable d.cast := by
  refine ((List.forall₂_and_left _ _).mp ((resolve_ends_eq_ok.mp resolved).imp fun m e joined => ⟨?_, joined⟩)).1
  have found : m.ends d.cast 0 = .ok e := Message.ends_eq_ok.mpr joined
  exact Message.placeable_iff_ends.mpr ⟨e, found⟩

/-- Placing headers again is placing them once. -/
theorem placeHeaders_placeHeaders (actors : List Actor) (before left : Nat) :
    placeHeaders measure page left (placeHeaders measure page before actors) = placeHeaders measure page left actors := by
  induction actors generalizing before left with
  | nil => rfl
  | cons a rest ih => exact congrArg (_ :: ·) (ih _ _)

theorem names_placeHeaders (actors : List Actor) (left : Nat) :
    (placeHeaders measure page left actors).map Actor.name = actors.map Actor.name := by
  induction actors generalizing left with
  | nil => rfl
  | cons a rest ih => exact congrArg (a.name :: ·) (ih _)

/-- Whose header is too wide for the page, the names tell. -/
theorem overflows_of_names (same : cast.names = other.names) :
    overflows measure page cast = overflows measure page other := by
  have size : cast.size = other.size := by simpa [Cast.size, Cast.names] using congrArg List.length same
  have told (c : Cast) : overflows measure page c = c.names.zipIdx.filterMap fun entry =>
      if page.width / c.size ≤ headerWidth measure page entry.1 then
        some ⟨entry.2, entry.1, headerWidth measure page entry.1, page.width / c.size⟩ else none := by
    rw [overflows, Cast.names, List.zipIdx_map, List.filterMap_map]
    rfl
  rw [told, told, same, size]

/-- A layout without messages can be made again, and comes to the same. -/
theorem arrange_again_of_silent (silent : d.messages = []) (done : arrange measure page d = .ok (arranged, outcome)) :
    arrange measure page arranged = .ok (arranged, outcome) := by
  cases peopled : d.cast.isEmpty with
  | true =>
    rw [arrange, if_pos peopled] at done
    cases done
    exact if_pos peopled
  | false =>
    obtain ⟨cast, messages, lineCount⟩ := d
    cases silent
    have named : (Cast.mk (placeHeaders measure page page.gutter cast.actors)).names = cast.names :=
      names_placeHeaders _ _
    have still : (Cast.mk (placeHeaders measure page page.gutter cast.actors)).isEmpty = false := by
      rw [Cast.isEmpty, List.isEmpty_eq_false_iff, ← List.length_pos_iff, length_placeHeaders, List.length_pos_iff,
        ← List.isEmpty_eq_false_iff]
      exact peopled
    rw [arrange, peopled] at done
    cases done
    have again : arrange measure page ⟨⟨placeHeaders measure page page.gutter cast.actors⟩, [], lineCount⟩ = _ :=
      if_neg (Bool.eq_false_iff.mp still)
    refine again.trans ?_
    dsimp only
    rw [placeHeaders_placeHeaders, overflows_of_names named]
    rfl

/-- No layout takes a diagram whose first message has a direction. -/
theorem arrange_directed (peopled : d.cast.isEmpty = false) (some_message : d.messages ≠ [])
    (directed : ∀ m ∈ d.messages, m.rightward ≠ none) : arrange measure page d = .error (.alreadyResolved 0) := by
  obtain ⟨first, others, messages⟩ := List.exists_cons_of_ne_nil some_message
  have refused : resolveEnds d = .error (.alreadyResolved 0) := by
    refine resolve_ends_eq_error.mpr ⟨0, first, ?_, .directed (directed first ?_), fun _ none => absurd none List.not_mem_nil⟩
    · rw [messages, List.getElem?_cons_zero]
    · rw [messages]
      exact List.mem_cons_self
  rw [arrange, peopled, refused]
  rfl

theorem arrange_eq_error (peopled : d.cast.isEmpty = false) :
    arrange measure page d = .error e ↔ resolveEnds d = .error e := by
  rw [arrange, peopled, if_neg Bool.false_ne_true]
  cases resolveEnds d with
  | error fault =>
    constructor <;>
    · intro same
      cases same
      rfl
  | ok ends =>
    constructor <;>
    · intro same
      cases same

namespace Editing

variable {after : Diagram}

theorem run_eq_ok : (Editing.arrange measure page).run d = .ok outcome after ↔
    Layout.arrange measure page d = .ok (after, outcome) := by
  rw [run_arrange]
  cases Layout.arrange measure page d with
  | error fault =>
    constructor <;>
    · intro same
      cases same
  | ok result =>
    constructor <;>
    · intro same
      cases same
      rfl

theorem run_eq_error : (Editing.arrange measure page).run d = .error e after ↔
    after = d ∧ Layout.arrange measure page d = .error e := by
  rw [run_arrange]
  cases Layout.arrange measure page d with
  | ok result =>
    constructor
    · intro same
      cases same
    · rintro ⟨_, same⟩
      cases same
  | error fault =>
    constructor
    · intro same
      cases same
      exact ⟨rfl, rfl⟩
    · rintro ⟨rfl, same⟩
      cases same
      rfl

end Editing

end Layout

/-- A layout of actors and messages succeeds or fails as a whole. It fails exactly when
some message has a direction already or names somebody who takes no part; it reports
the first such message, and leaves the diagram as it was. Where it succeeds every
message has a direction, and nothing else is new but the places of the headers. Made
again, it fails at the first message and leaves these places as they are; where
there is no message, it comes to the same. -/
theorem arranges_as_a_whole (measure : Measure) (page : Page) (d : Diagram) (peopled : d.cast.isEmpty = false) :
    ((∃ e after, (Editing.arrange measure page).run d = .error e after) ↔
      ∃ m ∈ d.messages, m.rightward ≠ none ∨ m.source ∉ d.cast.names ∨ m.target ∉ d.cast.names) ∧
    (∀ e after, (Editing.arrange measure page).run d = .error e after ↔ after = d ∧
      ∃ index m, d.messages[index]? = some m ∧ m.Refused d.cast index e ∧
        ∀ earlier ∈ d.messages.take index, earlier.Placeable d.cast) ∧
    ∀ outcome after, (Editing.arrange measure page).run d = .ok outcome after →
      Layout.arrange measure page d = .ok (after, outcome) ∧
      (∀ m ∈ after.messages, m.rightward ≠ none) ∧ after.messages.map (fun m => { m with rightward := none }) = d.messages ∧
      after.cast.names = d.cast.names ∧
      after.cast.actors.map Actor.lifespan = d.cast.actors.map Actor.lifespan ∧
      after.lineCount = d.lineCount ∧
      (d.messages ≠ [] → ∀ measure' page',
        (Editing.arrange measure' page').run after = .error (.alreadyResolved 0) after) ∧
      (d.messages = [] → (Editing.arrange measure page).run after = .ok outcome after) := by
  have refused (e : LayoutError) (after : Diagram) : (Editing.arrange measure page).run d = .error e after ↔
      after = d ∧ ∃ index m, d.messages[index]? = some m ∧ m.Refused d.cast index e ∧
        ∀ earlier ∈ d.messages.take index, earlier.Placeable d.cast := by
    rw [Editing.run_eq_error, arrange_eq_error peopled, resolve_ends_eq_error]
  refine ⟨⟨?_, ?_⟩, refused, ?_⟩
  · rintro ⟨e, after, failed⟩
    obtain ⟨_, index, m, message, reason, _⟩ := (refused e after).mp failed
    exact ⟨m, List.mem_of_getElem? message, reason.bad⟩
  · rintro ⟨m, sent, bad⟩
    cases resolved : resolveEnds d with
    | error e => exact ⟨e, d, Editing.run_eq_error.mpr ⟨rfl, (arrange_eq_error peopled).mpr resolved⟩⟩
    | ok ends =>
      obtain ⟨unknown, source, target⟩ := placeable_of_resolve_ends resolved m sent
      rcases bad with known | stranger | stranger
      · exact absurd unknown known
      · exact absurd source stranger
      · exact absurd target stranger
  · intro outcome after ran
    have done := Editing.run_eq_ok.mp ran
    obtain ⟨ends, result⟩ := arranged_of_ok peopled done
    refine ⟨done, fun m => result.directed_messages, result.undirected_messages, result.names_eq, ?_,
      result.lineCount, ?_, ?_⟩
    · have lived := congrArg (List.map Actor.lifespan) result.anywhere
      rw [List.map_map, List.map_map] at lived
      exact lived
    · intro some_message measure' page'
      refine Editing.run_eq_error.mpr ⟨rfl, arrange_directed ?_ ?_ fun m => result.directed_messages⟩
      · rw [Cast.isEmpty, List.isEmpty_eq_false_iff]
        exact result.somebody peopled
      · rwa [ne_eq, ← List.length_eq_zero_iff, result.length_messages, List.length_eq_zero_iff]
    · intro silent
      exact Editing.run_eq_ok.mpr (arrange_again_of_silent silent done)

/-- A diagram made by hand: one message that can be taken, then one that has a direction and
a stranger as well, then one between strangers. -/
def mixedUp : Diagram where
  cast := ⟨[{ name := ['A'], slot := { left := 7, width := 9 } }, { name := ['B'] }]⟩
  messages := [
    { arrow := ⟨.thin, false⟩, source := ['A'], target := ['B'], label := ['x'] },
    { arrow := ⟨.thin, true⟩, source := ['Z'], target := ['B'], label := ['y'], rightward := some true },
    { arrow := ⟨.thick, false⟩, source := ['Y'], target := ['Z'], label := [] }]
  lineCount := 3

theorem arranges_as_a_whole_mixed_up : mixedUp.cast.isEmpty = false ∧
    (Editing.arrange .cells (.terminal 80)).run mixedUp = .error (.alreadyResolved 1) mixedUp ∧
    ∃ outcome after, (Editing.arrange .cells (.terminal 80)).run { mixedUp with messages := mixedUp.messages.take 1 } =
        .ok outcome after ∧
      ∀ measure' page', (Editing.arrange measure' page').run after = .error (.alreadyResolved 0) after := by
  refine ⟨rfl, ?_, _, _, rfl, ?_⟩
  · refine ((arranges_as_a_whole .cells (.terminal 80) mixedUp rfl).2.1 _ _).mpr ⟨rfl, 1, _, rfl, .directed (Option.some_ne_none _), ?_⟩
    rintro earlier (_ | ⟨_, _ | _⟩)
    exact ⟨rfl, by decide, by decide⟩
  · obtain ⟨_, _, _, _, _, _, again, _⟩ := (arranges_as_a_whole .cells (.terminal 80)
      { mixedUp with messages := mixedUp.messages.take 1 } rfl).2.2 _ _ rfl
    exact again (by decide)

end SequenceDiagram
