import SequenceDiagram.Proofs.Layout.Filed
import SequenceDiagram.Proofs.Reading.Renaming

/-! Layouts under other names. Headers go by the widths of the names, messages by the
places of their actors, and the room of labels by the slots, so a renaming that keeps
the widths takes a layout along with all that it reports. -/
namespace SequenceDiagram

variable {f : Text → Text} {known : Set Text} {measure : Measure} {page : Page}

def Message.rename (f : Text → Text) (m : Message) : Message :=
  { m with source := f m.source, target := f m.target }

def Diagram.rename (f : Text → Text) (d : Diagram) : Diagram :=
  { d with cast := d.cast.rename f, messages := d.messages.map (Message.rename f) }

def LayoutError.rename (f : Text → Text) : LayoutError → LayoutError
  | unknownActor index name => unknownActor index (f name)
  | alreadyResolved index => alreadyResolved index

def Overflow.rename (f : Text → Text) (o : Overflow) : Overflow := { o with name := f o.name }

def Outcome.rename (f : Text → Text) (o : Outcome) : Outcome :=
  { o with warnings := o.warnings.map (Overflow.rename f) }

/-! ### Rows of actors -/

section Rows

variable {row : List Actor} {demand : Demand}

theorem midAt_rename (place : Nat) : midAt (row.map (Actor.rename f)) place = midAt row place := by
  rw [midAt, List.getElem?_map, midAt]
  cases row[place]? <;> rfl

theorem Demand.isMet_rename : demand.isMet (row.map (Actor.rename f)) = demand.isMet row := by
  rw [isMet, reach, ← List.map_drop, ← List.map_take, List.any_map, midAt_rename, isMet, reach]
  rfl

theorem Demand.grant_rename : demand.grant (row.map (Actor.rename f)) = (demand.grant row).map (Actor.rename f) := by
  rw [grant, isMet_rename, grant]
  split
  · rfl
  · rw [shortfall, midAt_rename, midAt_rename, shiftFrom, shortfall, shiftFrom, List.map_append, List.map_take,
      List.map_map, ← List.map_drop, List.map_map]
    rfl

namespace Layout

theorem grantAll_rename (demands : List (Nat × Demand)) :
    grantAll (row.map (Actor.rename f)) demands = (grantAll row demands).map (Actor.rename f) := by
  induction demands generalizing row with
  | nil => rfl
  | cons d demands ih =>
    rw [grantAll, List.foldl_cons, Demand.grant_rename]
    exact ih

theorem widenings_rename (demands : List (Nat × Demand)) :
    widenings (row.map (Actor.rename f)) demands = widenings row demands := by
  induction demands generalizing row with
  | nil => rfl
  | cons d demands ih => rw [widenings, Demand.isMet_rename, Demand.grant_rename, ih, widenings]

theorem headerOffset_rename : headerOffset (row.map (Actor.rename f)) = headerOffset row := by
  rw [headerOffset, List.map_map, headerOffset]
  rfl

theorem placeHeaders_rename (wide : ∀ a ∈ row, measure.header (f a.name) = measure.header a.name) (left : Nat) :
    placeHeaders measure page left (row.map (Actor.rename f)) =
      (placeHeaders measure page left row).map (Actor.rename f) := by
  induction row generalizing left with
  | nil => rfl
  | cons a row ih =>
    obtain ⟨first, others⟩ := List.forall_mem_cons.mp wide
    have width : headerWidth measure page (a.rename f).name = headerWidth measure page a.name :=
      congrArg (· + 2 * page.gutter) first
    simp only [List.map_cons, placeHeaders, width, ih others]
    rfl

end Layout

end Rows

/-! ### Messages -/

namespace Message

variable {cast : Cast} {m : Message} (distinct : known.InjOn f) (between : m.source ∈ known ∧ m.target ∈ known)
include distinct between

theorem isSelf_rename : (m.rename f).isSelf = m.isSelf := by
  rw [isSelf, isSelf, Bool.eq_iff_iff, beq_iff_eq, beq_iff_eq]
  exact distinct.eq_iff between.1 between.2

theorem demand_rename (last : Nat) (e : Ends) : (m.rename f).demand? measure last e = m.demand? measure last e := by
  rw [demand?, isSelf_rename distinct between, demand?]
  rfl

theorem ends_rename (all : ∀ other ∈ cast.names, other ∈ known) (index : Nat) :
    (m.rename f).ends (cast.rename f) index = (m.ends cast index).mapError (LayoutError.rename f) := by
  have source : (cast.rename f).indexOf? (m.rename f).source = cast.indexOf? m.source :=
    Cast.indexOf_rename distinct all between.1
  have target : (cast.rename f).indexOf? (m.rename f).target = cast.indexOf? m.target :=
    Cast.indexOf_rename distinct all between.2
  have rightward : (m.rename f).rightward = m.rightward := rfl
  rw [ends, source, target, rightward, ends]
  split
  · rfl
  · cases cast.indexOf? m.source with
    | none => rfl
    | some _ => cases cast.indexOf? m.target <;> rfl

end Message

namespace Layout

variable {d : Diagram}

section

variable (distinct : known.InjOn f) (between : ∀ m ∈ d.messages, m.source ∈ known ∧ m.target ∈ known)
include distinct between

theorem resolveEnds_rename (all : ∀ other ∈ d.cast.names, other ∈ known) :
    resolveEnds (d.rename f) = (resolveEnds d).mapError (LayoutError.rename f) := by
  rw [resolveEnds, Diagram.rename, List.zipIdx_map, List.mapM_map, resolveEnds]
  refine Attempt.mapM_mapError fun entry member => ?_
  exact Message.ends_rename distinct (between _ (List.fst_mem_of_mem_zipIdx member)) all entry.2

theorem demands_rename (ends : List Ends) : demands measure (d.rename f) ends = demands measure d ends := by
  have size : (d.rename f).cast.size = d.cast.size := List.length_map _
  rw [demands, size, Diagram.rename, List.zip_map_left, List.zipIdx_map, List.filterMap_map, demands]
  refine List.filterMap_congr fun entry member => ?_
  have held := List.of_mem_zip (List.fst_mem_of_mem_zipIdx member)
  exact congrArg (Option.map _) (Message.demand_rename distinct (between _ held.1) _ _)

end

theorem overflows_rename {cast : Cast}
    (wide : ∀ a ∈ cast.actors, measure.header (f a.name) = measure.header a.name) :
    overflows measure page (cast.rename f) = (overflows measure page cast).map (Overflow.rename f) := by
  have size : (cast.rename f).size = cast.size := List.length_map _
  rw [overflows, size, Cast.rename, List.zipIdx_map, List.filterMap_map, overflows, List.map_filterMap]
  refine List.filterMap_congr ?_
  rintro ⟨a, index⟩ member
  have width : headerWidth measure page (a.rename f).name = headerWidth measure page a.name :=
    congrArg (· + 2 * page.gutter) (wide a (List.fst_mem_of_mem_zipIdx member))
  simp only [Function.comp_apply, Prod.map_apply, width]
  split <;> rfl

/-- What comes of a layout, with other names. -/
def renameArranged (f : Text → Text) :
    Except LayoutError (Diagram × Outcome) → Except LayoutError (Diagram × Outcome)
  | .ok (d, outcome) => .ok (d.rename f, outcome.rename f)
  | .error e => .error (e.rename f)

theorem arrange_rename (distinct : known.InjOn f)
    (all : ∀ a ∈ d.cast.actors, a.name ∈ known ∧ measure.header (f a.name) = measure.header a.name)
    (between : ∀ m ∈ d.messages, m.source ∈ known ∧ m.target ∈ known) :
    arrange measure page (d.rename f) = renameArranged f (arrange measure page d) := by
  have listed : ∀ other ∈ d.cast.names, other ∈ known := List.forall_mem_map.mpr fun a member => (all a member).1
  have wide : ∀ a ∈ d.cast.actors, measure.header (f a.name) = measure.header a.name := fun a member =>
    (all a member).2
  have empty : (d.rename f).cast.isEmpty = d.cast.isEmpty := List.isEmpty_map
  have placed : placeHeaders measure page page.gutter (d.rename f).cast.actors =
      (placeHeaders measure page page.gutter d.cast.actors).map (Actor.rename f) := placeHeaders_rename wide _
  have resolved (ends : List Ends) : (d.rename f).messages.zipWith Message.resolve ends =
      (d.messages.zipWith Message.resolve ends).map (Message.rename f) := by
    rw [Diagram.rename, List.zipWith_map_left, List.map_zipWith]
    rfl
  have reported : overflows measure page (d.rename f).cast = (overflows measure page d.cast).map (Overflow.rename f) :=
    overflows_rename wide
  rw [arrange, empty, resolveEnds_rename distinct between listed, placed, reported, arrange]
  split
  · rfl
  · cases resolveEnds d with
    | error e => rfl
    | ok ends =>
      simp only [Except.mapError, demands_rename distinct between, grantAll_rename, headerOffset_rename,
        widenings_rename, resolved]
      rfl

end Layout

/-! ### Registries -/

/-- A registry with another name for every actor: the order has the other names, and at
every place stands the same actor. -/
structure Registry.RenamedBy (f : Text → Text) (r other : Registry) : Prop where
  order : other.order = r.order.map f
  actors : ∀ place, other.actorAt? place = (r.actorAt? place).map (Actor.rename f)

/-- A filed diagram with another name for every actor. -/
structure Filed.RenamedBy (f : Text → Text) (s other : Filed) : Prop where
  registry : s.registry.RenamedBy f other.registry
  messages : other.messages = s.messages.map (Message.rename f)
  lineCount : other.lineCount = s.lineCount

/-- Two layouts of filed diagrams that end alike, but for the names. -/
inductive Layout.Filing.RenamedBy (f : Text → Text) :
    EStateM.Result LayoutError Filed Outcome → EStateM.Result LayoutError Filed Outcome → Prop where
  | ok {outcome : Outcome} {s other : Filed} (same : s.RenamedBy f other) :
      RenamedBy f (.ok outcome s) (.ok (outcome.rename f) other)
  | error {e : LayoutError} {s other : Filed} (same : s.RenamedBy f other) :
      RenamedBy f (.error e s) (.error (e.rename f) other)

theorem Registry.Keeps.renamed {r other : Registry} {c : Cast} (keeps : r.Keeps c)
    (again : other.Keeps (c.rename f)) : r.RenamedBy f other where
  order := by rw [again.order, Cast.names_rename, keeps.order]
  actors place := by
    rw [again.actorAt_eq, keeps.actorAt_eq, Cast.get?, Cast.rename, List.getElem?_map, Cast.get?]

theorem Filed.Holds.renamed {s other : Filed} {d : Diagram} (held : s.Holds d) (again : other.Holds (d.rename f)) :
    s.RenamedBy f other where
  registry := held.keeps.renamed again.keeps
  messages := by rw [again.messages, held.messages, Diagram.rename]
  lineCount := again.lineCount.trans held.lineCount.symm

/-- Filed diagrams are laid out alike, but for the names, if the diagrams that they
hold are. -/
theorem Layout.Filing.renamed_arrange {s other : Filed} {d : Diagram} (held : s.Holds d)
    (again : other.Holds (d.rename f))
    (renamed : Layout.arrange measure page (d.rename f) = renameArranged f (Layout.arrange measure page d)) :
    RenamedBy f ((arrange measure page).run s) ((arrange measure page).run other) := by
  have first := @run_arrange measure page s d held
  have second := @run_arrange measure page other (d.rename f) again
  rw [renamed] at second
  cases ended : Layout.arrange measure page d with
  | ok arranged =>
    rw [ended] at first second
    obtain ⟨next, ran, holds⟩ := first
    obtain ⟨otherNext, otherRan, otherHolds⟩ := second
    rw [ran, otherRan]
    exact .ok (holds.renamed otherHolds)
  | error e =>
    rw [ended] at first second
    obtain ⟨next, ran, holds⟩ := first
    obtain ⟨otherNext, otherRan, otherHolds⟩ := second
    rw [ran, otherRan]
    exact .error (holds.renamed otherHolds)

/-- A renaming of names that mentions can have: it tells them apart, gives them others
that mentions can have, and keeps their widths. -/
structure Measure.Renames (measure : Measure) (f : Text → Text) (names : Set Text) : Prop where
  distinct : names.InjOn f
  bare : ∀ name ∈ names, name.Bare
  stillBare : ∀ name ∈ names, (f name).Bare
  wide : ∀ name ∈ names, measure.header (f name) = measure.header name

/-- Names matter by their first mention and by their width, and in no other way.
Mentions of the same actors under other names are answered alike, refusals included,
and leave the same cast but for the names; and the messages between these actors are
laid out alike, or refused alike. The same is so where the actors are kept in a table
that is sorted by the names. -/
theorem names_matter_by_first_mention_and_width (page : Page) (lineCount : Nat) {names : Set Text}
    {mentions : List (Mention × Nat)} {messages : List Message} (renames : measure.Renames f names)
    (mentioned : ∀ mention ∈ mentions, mention.1.name ∈ names)
    (between : ∀ m ∈ messages, m.source ∈ names ∧ m.target ∈ names) :
    let tokens := mentions.map fun mention => (mention.1.token, mention.2)
    let others := mentions.map fun mention => ((mention.1.rename f).token, mention.2)
    let (answers, cast) := Cast.referAll {} tokens
    let (otherAnswers, otherCast) := Cast.referAll {} others
    let (filedAnswers, registry) := Registry.referAll {} tokens
    let (otherFiledAnswers, otherRegistry) := Registry.referAll {} others
    otherAnswers = answers.map (renameAnswer f) ∧ otherCast = cast.rename f ∧
      Layout.arrange measure page { cast := otherCast, messages := messages.map (Message.rename f), lineCount } =
        Layout.renameArranged f (Layout.arrange measure page { cast, messages, lineCount }) ∧
      filedAnswers = answers ∧ otherFiledAnswers = otherAnswers ∧ registry.RenamedBy f otherRegistry ∧
      Layout.Filing.RenamedBy f ((Layout.Filing.arrange measure page).run { registry, messages, lineCount })
        ((Layout.Filing.arrange measure page).run
          { registry := otherRegistry, messages := messages.map (Message.rename f), lineCount }) := by
  intro tokens others
  -- the cast goes first; the registry keeps it, and filed diagrams are laid out as those that they hold
  have nobody : ∀ other ∈ (Cast.names {}), other ∈ names := fun _ none => nomatch none
  have heard : Cast.referAll {} others =
      ((Cast.referAll {} tokens).1.map (renameAnswer f), (Cast.referAll {} tokens).2.rename f) :=
    Cast.referAll_rename renames.distinct nobody fun mention member =>
      have known := mentioned mention member
      ⟨known, renames.bare _ known, renames.stillBare _ known⟩
  have listed : ∀ other ∈ (Cast.referAll {} tokens).2.names, other ∈ names :=
    Cast.known_referAll nobody fun mention member =>
      have known := mentioned mention member
      ⟨known, renames.bare _ known⟩
  have arranged := @Layout.arrange_rename f names measure page
    { cast := (Cast.referAll {} tokens).2, messages, lineCount } renames.distinct
    (fun a member =>
      have known := listed a.name (List.mem_map_of_mem member)
      ⟨known, renames.wide _ known⟩) between
  obtain ⟨filedAnswers, keeps⟩ := Registry.Keeps.empty.referAll tokens
  obtain ⟨otherFiledAnswers, otherKeeps⟩ := Registry.Keeps.empty.referAll others
  rw [congrArg Prod.snd heard] at otherKeeps
  have held : Filed.Holds { registry := (Registry.referAll {} tokens).2, messages, lineCount }
      { cast := (Cast.referAll {} tokens).2, messages, lineCount } := ⟨keeps, rfl, rfl⟩
  have otherHeld : Filed.Holds
      { registry := (Registry.referAll {} others).2, messages := messages.map (Message.rename f), lineCount }
      (Diagram.rename f { cast := (Cast.referAll {} tokens).2, messages, lineCount }) := ⟨otherKeeps, rfl, rfl⟩
  refine ⟨congrArg Prod.fst heard, congrArg Prod.snd heard, ?_, filedAnswers, otherFiledAnswers,
    keeps.renamed otherKeeps, Layout.Filing.renamed_arrange held otherHeld arranged⟩
  rw [heard]
  exact arranged

/-- The renaming by which two names change places. -/
def swapNames (one other name : Text) : Text := if name = one then other else if name = other then one else name

theorem swapNames_left (one other : Text) : swapNames one other one = other := if_pos rfl

theorem swapNames_right (one other : Text) : swapNames one other other = one := by
  rw [swapNames]
  split
  · assumption
  · exact if_pos rfl

/-- Two names of the same width may change places. -/
theorem Measure.renames_swapNames {one other : Text} (bare : one.Bare) (otherBare : other.Bare)
    (wide : measure.header other = measure.header one) :
    measure.Renames (swapNames one other) {name | name = one ∨ name = other} where
  distinct := by
    rintro _ (rfl | rfl) _ (rfl | rfl) same <;> simp_all [swapNames_left, swapNames_right]
  bare := by
    rintro _ (rfl | rfl)
    · exact bare
    · exact otherBare
  stillBare := by
    rintro _ (rfl | rfl)
    · exact (swapNames_left _ _).symm ▸ otherBare
    · exact (swapNames_right _ _).symm ▸ bare
  wide := by
    rintro _ (rfl | rfl)
    · exact (congrArg measure.header (swapNames_left _ _)).trans wide
    · exact (congrArg measure.header (swapNames_right _ _)).trans wide.symm

/-- Bob and Amy change places, in the alphabet as well. One of the mentions is refused,
and both headers are too wide for the page. -/
theorem names_matter_by_first_mention_and_width_swapped :
    (Registry.referAll {} [(['A', 'm', 'y'], 1), (['/', 'B', 'o', 'b'], 1), (['B', 'o', 'b', '/'], 2)]).2.order =
        [['A', 'm', 'y'], ['B', 'o', 'b']] ∧
      (Cast.referAll {} [(['A', 'm', 'y'], 1), (['/', 'B', 'o', 'b'], 1), (['B', 'o', 'b', '/'], 2)]).1 =
        [.ok ['A', 'm', 'y'], .error ⟨.endsUnopened, ['B', 'o', 'b'], 1⟩, .ok ['B', 'o', 'b']] ∧
      (Layout.arrange .cells { width := 10 }
        { cast :=
            ⟨[{ name := ['A', 'm', 'y'], lifespan := ⟨[1]⟩ }, { name := ['B', 'o', 'b'], lifespan := ⟨[2, -2]⟩ }]⟩
          messages := [⟨⟨.thin, false⟩, ['A', 'm', 'y'], ['B', 'o', 'b'], ['h', 'i'], none⟩] }).map
          (fun arranged => (arranged.1.cast.actors.map (·.slot.left), arranged.2.warnings.map (·.name))) =
        .ok ([10, 43], [['A', 'm', 'y'], ['B', 'o', 'b']]) := by
  have renames := @Measure.renames_swapNames .cells ['B', 'o', 'b'] ['A', 'm', 'y']
    ⟨by decide, by decide, by decide⟩ ⟨by decide, by decide, by decide⟩ rfl
  obtain ⟨answers, -, arranged, -, -, ⟨order, -⟩, -⟩ := @names_matter_by_first_mention_and_width
    (swapNames ['B', 'o', 'b'] ['A', 'm', 'y']) .cells { width := 10 } 0 _
    [(⟨['B', 'o', 'b'], .plain⟩, 1), (⟨['A', 'm', 'y'], .ending⟩, 1), (⟨['A', 'm', 'y'], .oneShot⟩, 2)]
    [⟨⟨.thin, false⟩, ['B', 'o', 'b'], ['A', 'm', 'y'], ['h', 'i'], none⟩] renames (by simp) (by simp)
  exact ⟨order.trans (by decide), answers.trans (by decide), (congrArg (Except.map _) arranged).trans (by decide)⟩

end SequenceDiagram
