import SequenceDiagram.Layout.Filed
import SequenceDiagram.Proofs.Layout.InPlace
import SequenceDiagram.Proofs.Reading.Registry

/-! A layout of a filed diagram follows the layout in place, step by step: what a step
looks up by place or by name is what the cast has there, and what it changes in the
table is changed in the cast. -/
namespace SequenceDiagram

/-- A filed diagram that holds a diagram: the registry keeps its cast, and the rest is
the same. -/
structure Filed.Holds (s : Filed) (d : Diagram) : Prop where
  keeps : s.registry.Keeps d.cast
  messages : s.messages = d.messages
  lineCount : s.lineCount = d.lineCount

namespace Layout.Filing

variable {α β : Type} {measure : Measure} {page : Page} {s : Filed} {d : Diagram} {share left right columns : Nat}

/-- A step on a filed diagram and one on a diagram that end alike, with the one holding
the other. -/
inductive Alike : EStateM.Result LayoutError Filed α → EStateM.Result LayoutError Diagram α → Prop where
  | ok {a : α} {s : Filed} {d : Diagram} (held : s.Holds d) : Alike (.ok a s) (.ok a d)
  | error {e : LayoutError} {s : Filed} {d : Diagram} (held : s.Holds d) : Alike (.error e s) (.error e d)

/-- Wherever the one holds the other, the two steps end alike. -/
def Follows (p : Filing α) (q : Editing α) : Prop :=
  ∀ (s : Filed) (d : Diagram), s.Holds d → Alike (p.run s) (q.run d)

theorem Alike.bind {p : Filing α} {q : Editing α} {f : α → Filing β} {g : α → Editing β}
    (first : Alike (p.run s) (q.run d)) (next : ∀ a, Follows (f a) (g a)) :
    Alike ((p >>= f).run s) ((q >>= g).run d) := by
  rw [EStateM.run_bind, EStateM.run_bind]
  generalize p.run s = stored at first ⊢
  generalize q.run d = plain at first ⊢
  cases first with
  | ok held => exact next _ _ _ held
  | error held => exact .error held

namespace Follows

theorem pure (a : α) : Follows (pure a) (pure a) := fun _ _ held => .ok held

theorem bind {p : Filing α} {q : Editing α} {f : α → Filing β} {g : α → Editing β} (first : Follows p q)
    (next : ∀ a, Follows (f a) (g a)) : Follows (p >>= f) (q >>= g) :=
  fun s d held => (first s d held).bind next

/-- What is done next may go by the diagram as it is. -/
theorem read {f : Filed → Filing α} {g : Diagram → Editing α}
    (next : ∀ (s : Filed) (d : Diagram), s.Holds d → Alike ((f s).run s) ((g d).run d)) :
    Follows (get >>= f) (get >>= g) := by
  intro s d held
  rw [EStateM.run_bind, EStateM.run_bind, EStateM.run_get, EStateM.run_get]
  exact next s d held

theorem mapM {p : α → Filing β} {q : α → Editing β} (each : ∀ a, Follows (p a) (q a)) (as : List α) :
    Follows (as.mapM p) (as.mapM q) := by
  induction as with
  | nil => exact pure []
  | cons a as ih =>
    rw [List.mapM_cons, List.mapM_cons]
    exact (each a).bind fun _ => ih.bind fun _ => pure _

theorem forM {p : α → Filing Unit} {q : α → Editing Unit} (each : ∀ a, Follows (p a) (q a)) (as : List α) :
    Follows (forM as p) (forM as q) := by
  induction as with
  | nil => exact pure ()
  | cons a as ih =>
    rw [List.forM_cons, List.forM_cons]
    exact (each a).bind fun _ => ih

theorem changeActor (edit : Actor → Actor) (same : ∀ a, (edit a).name = a.name) (place : Nat) :
    Follows (changeActor place edit) (Editing.changeActor place edit) :=
  fun _ _ held => .ok ⟨held.keeps.changeAt same place, held.messages, held.lineCount⟩

theorem changeMessage (index : Nat) (edit : Message → Message) :
    Follows (changeMessage index edit) (Editing.changeMessage index edit) :=
  fun _ _ held => .ok ⟨held.keeps, congrArg (List.modify · index edit) held.messages, held.lineCount⟩

end Follows

theorem run_placeOf (held : s.Holds d) (index : Nat) (name : Text) : (placeOf index name).run s =
    match d.cast.indexOf? name with
    | some place => .ok place s
    | none => .error (.unknownActor index name) s := by
  rw [placeOf, EStateM.run_bind, EStateM.run_get]
  dsimp only
  rw [held.keeps.indexOf_eq]
  cases d.cast.indexOf? name <;> rfl

theorem look_follows (index : Nat) (m : Message) : Follows (look index m) (Editing.look index m) := by
  intro s d held
  rw [Editing.run_look, look, Message.ends]
  cases m.rightward.isSome with
  | true => exact .error held
  | false =>
    rw [if_neg Bool.false_ne_true, if_neg Bool.false_ne_true, EStateM.run_bind, run_placeOf held]
    cases d.cast.indexOf? m.source with
    | none => exact .error held
    | some source =>
      dsimp only
      rw [EStateM.run_bind, run_placeOf held]
      cases d.cast.indexOf? m.target with
      | none => exact .error held
      | some target => exact .ok held

theorem placeHeaders_follows (places : List Nat) (left : Nat) :
    Follows (placeHeaders measure page share places left) (Editing.placeHeaders measure page share places left) := by
  induction places generalizing left with
  | nil => exact .pure []
  | cons place places ih =>
    refine .read fun s d held => ?_
    rw [held.keeps.actorAt_eq]
    cases d.cast.get? place with
    | none => exact ih left s d held
    | some a =>
      dsimp only
      refine Follows.bind ?_ (fun _ => (ih _).bind fun _ => .pure _) s d held
      refine .changeActor _ (fun _ => ?_) place
      rfl

theorem midAt_eq (held : s.Holds d) (place : Nat) :
    midAt s.registry place = SequenceDiagram.midAt d.cast.actors place := by
  rw [midAt, held.keeps.actorAt_eq]
  rfl

/-- A demand is met as the centre lines say that are found place by place. -/
theorem any_mid_eq (held : s.Holds d) :
    ((List.range' left (right + 1 - left)).any fun place => columns < midAt s.registry place - midAt s.registry left) =
      Demand.isMet { left, right, columns } d.cast.actors := by
  rw [Bool.eq_iff_iff, Demand.isMet_iff]
  simp only [List.any_eq_true, List.mem_range'_1, decide_eq_true_eq, midAt_eq held]
  constructor
  · rintro ⟨place, within, met⟩
    have inside : place < d.cast.actors.length := by
      by_contra outside
      rw [SequenceDiagram.midAt, List.getElem?_eq_none (Nat.not_lt.mp outside)] at met
      simp at met
    exact ⟨place, by omega, by omega, inside, by omega⟩
  · rintro ⟨place, low, high, _, met⟩
    exact ⟨place, by omega, by omega⟩

theorem makeRoom_last (held : s.Holds d) (last : left = d.cast.size - 1) :
    (makeRoom left left columns).run s = .ok false s := by
  rw [makeRoom, EStateM.run_bind, EStateM.run_get]
  dsimp only
  rw [if_pos ⟨rfl, held.keeps.size_eq ▸ last⟩]
  rfl

/-- Room is made as a demand between the places, or up to the next one, is granted. -/
theorem makeRoom_grant (held : s.Holds d) (inner : left = right → left ≠ d.cast.size - 1) :
    Alike ((makeRoom left right columns).run s)
      ((Editing.grant { left, right := if left = right then left + 1 else right, columns }).run d) := by
  have moves (places : List Nat) (missing : Nat) :
      Follows (forM places fun place => changeActor place (·.moveRight missing))
        (Editing.changeActors places (·.moveRight missing)) :=
    .forM (fun place => .changeActor (·.moveRight missing) (fun _ => rfl) place) places
  have asked : ¬(left = right ∧ left = s.registry.size - 1) := fun both =>
    inner both.1 (held.keeps.size_eq ▸ both.2)
  rw [makeRoom, Editing.grant, EStateM.run_bind, EStateM.run_bind, EStateM.run_get, EStateM.run_get]
  dsimp only
  rw [if_neg asked, any_mid_eq held]
  generalize (if left = right then left + 1 else right) = right
  cases Demand.isMet { left, right, columns } d.cast.actors with
  | true => exact .ok held
  | false =>
    rw [if_neg Bool.false_ne_true, if_neg Bool.false_ne_true, midAt_eq held, midAt_eq held, held.keeps.size_eq]
    exact (moves _ _).bind (fun _ => .pure true) s d held

theorem turn_follows (index : Nat) (e : Ends) : Follows (turn measure index e) (Editing.turn measure index e) := by
  refine (Follows.changeMessage index _).bind fun _ => .read fun s d held => ?_
  rw [held.messages]
  cases d.messages[index]? with
  | none => exact .ok held
  | some m =>
    have order : min e.source e.target ≤ max e.source e.target :=
      Nat.le_trans (Nat.min_le_left _ _) (Nat.le_max_left _ _)
    simp only [Option.bind_some, Message.demand?]
    generalize min e.source e.target = left at order ⊢
    generalize max e.source e.target = right at order ⊢
    generalize (if m.isSelf = true then measure.loop m.label else measure.message m.label) = columns
    -- a message between two actors, or of one to itself, who may be the last
    by_cases apart : left < right
    · have granted := @makeRoom_grant s d left right columns held fun same => absurd same (Nat.ne_of_lt apart)
      rw [if_neg (Nat.ne_of_lt apart)] at granted
      rw [if_pos apart]
      exact granted.bind fun _ => .pure _
    · have same : left = right := Nat.le_antisymm order (Nat.not_lt.mp apart)
      subst same
      rw [if_neg apart]
      by_cases last : left = d.cast.size - 1
      · rw [if_pos last, EStateM.run_bind, makeRoom_last held last]
        exact .ok held
      · have granted := @makeRoom_grant s d left left columns held fun _ => last
        rw [if_pos rfl] at granted
        rw [if_neg last]
        exact granted.bind fun _ => .pure _

theorem turns_follow (index : Nat) (ends : List Ends) :
    Follows (turns measure index ends) (Editing.turns measure index ends) := by
  induction ends generalizing index with
  | nil => exact .pure []
  | cons e ends ih => exact (turn_follows index e).bind fun _ => (ih (index + 1)).bind fun _ => .pure _

theorem arrange_follows : Follows (arrange measure page) (Editing.arrange measure page) := by
  refine .read fun s d held => ?_
  rw [held.keeps.isEmpty_eq]
  cases d.cast.isEmpty with
  | true => exact .ok held
  | false =>
    rw [if_neg Bool.false_ne_true, if_neg Bool.false_ne_true, held.messages, held.keeps.size_eq]
    have looks := Follows.mapM fun entry : Message × Nat => look_follows entry.2 entry.1
    refine (looks _).bind (fun ends => ?_) s d held
    refine (placeHeaders_follows _ _).bind fun warnings => (turns_follow 0 ends).bind fun widened => ?_
    refine .read fun s d held => ?_
    rw [held.keeps.actors_eq]
    exact .ok held

/-- The layout of a filed diagram comes to the layout of the diagram that it holds. -/
theorem run_arrange (held : s.Holds d) : match Layout.arrange measure page d with
    | .ok (arranged, outcome) => ∃ next, (arrange measure page).run s = .ok outcome next ∧ next.Holds arranged
    | .error e => ∃ next, (arrange measure page).run s = .error e next ∧ next.Holds d := by
  have ended := @arrange_follows measure page s d held
  rw [Editing.run_arrange] at ended
  generalize Layout.arrange measure page d = whole at ended ⊢
  generalize (arrange measure page).run s = stored at ended ⊢
  cases whole with
  | ok arranged =>
    cases ended with
    | ok held => exact ⟨_, rfl, held⟩
  | error e =>
    cases ended with
    | error held => exact ⟨_, rfl, held⟩

end Layout.Filing

end SequenceDiagram
