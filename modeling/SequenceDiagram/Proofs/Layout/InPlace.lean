import SequenceDiagram.Layout.InPlace
import SequenceDiagram.Proofs.Layout.Turns

/-! A layout in place is all or nothing. Looking at the messages changes nothing and
is all that can fail; what is done after that, actor by actor and message by
message, comes to the arrangement as a whole. -/
namespace SequenceDiagram.Layout.Editing

variable {measure : Measure} {page : Page} {d : Diagram} {front rest : List Actor} {ends : List Ends}
  {share left last : Nat} {demand : Demand}

/-- How a step ends that makes an attempt and leaves the diagram as it is. -/
def ending {α : Type} (d : Diagram) : Except LayoutError α → EStateM.Result LayoutError Diagram α
  | .ok a => .ok a d
  | .error e => .error e d

/-- The demands of messages whose indices start from one. -/
def demandsFrom (measure : Measure) (last index : Nat) (messages : List Message) (ends : List Ends) :
    List (Nat × Demand) :=
  ((messages.zip ends).zipIdx index).filterMap fun ((m, e), index) => (m.demand? measure last e).map (index, ·)

theorem demandsFrom_cons {index : Nat} {m : Message} {others : List Message} {e : Ends} :
    demandsFrom measure last index (m :: others) (e :: ends) =
      match m.demand? measure last e with
      | none => demandsFrom measure last (index + 1) others ends
      | some demand => (index, demand) :: demandsFrom measure last (index + 1) others ends := by
  rw [demandsFrom, List.zip_cons_cons, List.zipIdx_cons, List.filterMap_cons]
  dsimp only
  cases m.demand? measure last e <;> rfl

theorem run_look (index : Nat) (m : Message) : (look index m).run d = ending d (m.ends d.cast index) := by
  rw [look, EStateM.run_bind, EStateM.run_get]
  dsimp only
  cases m.ends d.cast index <;> rfl

/-- Steps that only look still do so one after the other, up to the first that fails. -/
theorem run_mapM_of_look {α β : Type} {step : α → Editing β} {attempt : α → Except LayoutError β}
    (looks : ∀ a, (step a).run d = ending d (attempt a)) (as : List α) :
    (as.mapM step).run d = ending d (as.mapM attempt) := by
  induction as with
  | nil => rfl
  | cons a others ih =>
    rw [List.mapM_cons, List.mapM_cons, EStateM.run_bind, looks]
    cases attempt a with
    | error e => rfl
    | ok b =>
      dsimp only [ending]
      rw [EStateM.run_bind, ih]
      cases others.mapM attempt <;> rfl

theorem run_looks : (d.messages.zipIdx.mapM fun (m, index) => look index m).run d = ending d (resolveEnds d) :=
  run_mapM_of_look (fun entry : Message × Nat => run_look entry.2 entry.1) _

theorem modify_append_cons {α : Type} (change : α → α) (front others : List α) (a : α) :
    (front ++ a :: others).modify front.length change = front ++ change a :: others := by
  induction front with
  | nil => rfl
  | cons first front ih => exact congrArg (first :: ·) ih

/-- The actors from a place on are changed, and nothing else. -/
theorem run_changeActors (change : Actor → Actor) :
    (changeActors (List.range' front.length rest.length) change).run { d with cast := ⟨front ++ rest⟩ } =
      .ok () { d with cast := ⟨front ++ rest.map change⟩ } := by
  induction rest generalizing front with
  | nil => rfl
  | cons a others ih =>
    have next := @ih (front ++ [change a])
    rw [List.length_append, List.append_assoc, List.append_assoc] at next
    rw [changeActors, List.length_cons, List.range'_succ, List.forM_cons, EStateM.run_bind, changeActor,
      EStateM.run_modify]
    dsimp only
    rw [modify_append_cons]
    exact next

/-- Headers are put on the actors from a place on as they are put on a row. -/
theorem run_placeHeaders (share : Nat) : (placeHeaders measure page share (List.range' front.length rest.length) left).run
      { d with cast := ⟨front ++ rest⟩ } =
    .ok ((rest.zipIdx front.length).filterMap fun (a, index) =>
        if share ≤ headerWidth measure page a.name then
          some { index, name := a.name, width := headerWidth measure page a.name, share } else none)
      { d with cast := ⟨front ++ Layout.placeHeaders measure page left rest⟩ } := by
  induction rest generalizing front left with
  | nil => rfl
  | cons a others ih =>
    have next (slot : Slot) (left : Nat) := @ih (front ++ [{ a with slot }]) left
    simp only [List.length_append, List.length_singleton, List.append_assoc, List.singleton_append] at next
    have found : (Cast.mk (front ++ a :: others)).get? front.length = some a := by simp [Cast.get?]
    rw [List.length_cons, List.range'_succ, placeHeaders, EStateM.run_bind, EStateM.run_get]
    dsimp only
    rw [found]
    dsimp only
    rw [EStateM.run_bind, changeActor, EStateM.run_modify]
    dsimp only
    rw [modify_append_cons, EStateM.run_bind, next, List.zipIdx_cons, List.filterMap_cons]
    by_cases wide : share ≤ headerWidth measure page a.name
    · simp only [if_pos wide]
      rfl
    · simp only [if_neg wide]
      rfl

/-- The actors from a place on are changed, wherever the place is. -/
theorem run_changeActors_from (place : Nat) (change : Actor → Actor) :
    (changeActors (List.range' place (d.cast.actors.length - place)) change).run d =
      .ok () { d with cast := ⟨d.cast.actors.take place ++ (d.cast.actors.drop place).map change⟩ } := by
  rcases Nat.le_total place d.cast.actors.length with inside | past
  · have changed := @run_changeActors d (d.cast.actors.take place) (d.cast.actors.drop place) change
    rw [List.length_take_of_le inside, List.length_drop, List.take_append_drop] at changed
    exact changed
  · rw [Nat.sub_eq_zero_of_le past, List.take_of_length_le past, List.drop_of_length_le past, List.map_nil,
      List.append_nil]
    rfl

theorem run_grant : (grant demand).run d =
    .ok (!demand.isMet d.cast.actors) { d with cast := ⟨demand.grant d.cast.actors⟩ } := by
  rw [grant, EStateM.run_bind, EStateM.run_get, Demand.grant]
  dsimp only
  cases met : demand.isMet d.cast.actors with
  | true => rfl
  | false =>
    rw [if_neg Bool.false_ne_true, EStateM.run_bind, run_changeActors_from]
    rfl

/-- The turn of a message gives it its direction and the row what it demands. -/
theorem run_turn {told others : List Message} {m : Message} {e : Ends} (size : d.cast.size - 1 = last) :
    (turn measure told.length e).run { d with messages := told ++ m :: others } =
      .ok ((m.demand? measure last e).bind fun demand =>
          if demand.isMet d.cast.actors then none else some ⟨told.length, demand.columns⟩)
        { d with
          cast := ⟨((m.demand? measure last e).elim id Demand.grant) d.cast.actors⟩
          messages := told ++ m.resolve e :: others } := by
  have here : (told ++ m.resolve e :: others)[told.length]? = some (m.resolve e) := by simp
  have same : (m.resolve e).demand? measure last e = m.demand? measure last e := rfl
  rw [turn, EStateM.run_bind, changeMessage, EStateM.run_modify]
  dsimp only
  rw [modify_append_cons, EStateM.run_bind, EStateM.run_get]
  dsimp only
  rw [here, Option.bind_some, size, same]
  cases m.demand? measure last e with
  | none => rfl
  | some demand =>
    dsimp only
    rw [EStateM.run_bind, run_grant, Option.bind_some]
    cases demand.isMet d.cast.actors <;> rfl

/-- The turns from a message on, one after the other, are these turns as a whole. -/
theorem run_turns {told others : List Message} (places : others.length = ends.length) (size : d.cast.size - 1 = last) :
    (turns measure told.length ends).run { d with messages := told ++ others } =
      .ok (widenings d.cast.actors (demandsFrom measure last told.length others ends))
        { d with
          cast := ⟨grantAll d.cast.actors (demandsFrom measure last told.length others ends)⟩
          messages := told ++ others.zipWith Message.resolve ends } := by
  induction others generalizing told ends d with
  | nil =>
    cases List.eq_nil_of_length_eq_zero places.symm
    rfl
  | cons m others ih =>
    obtain ⟨e, ends, rfl⟩ := List.exists_cons_of_length_eq_add_one places.symm
    have next (row : List Actor) (same : row.length - 1 = last) :=
      @ih { d with cast := ⟨row⟩ } ends (told ++ [m.resolve e]) (Nat.succ.inj places) same
    simp only [List.length_append, List.length_singleton, List.append_assoc, List.singleton_append] at next
    rw [turns, EStateM.run_bind, run_turn size]
    dsimp only
    rw [demandsFrom_cons, EStateM.run_bind]
    cases m.demand? measure last e with
    | none =>
      dsimp only [Option.elim_none, id_eq]
      rw [next _ size]
      rfl
    | some demand =>
      -- a grant moves actors and neither adds nor removes any
      have same : (demand.grant d.cast.actors).length - 1 = last :=
        (demand.grant_widens d.cast.actors).length_eq.symm ▸ size
      dsimp only [Option.elim_some, Option.bind_some, widenings]
      rw [next _ same]
      cases demand.isMet d.cast.actors <;> rfl

/-- A layout in place comes to the layout as a whole. Where that is refused, the
diagram is left as it was. -/
theorem run_arrange : (arrange measure page).run d =
    match Layout.arrange measure page d with
    | .ok (arranged, outcome) => .ok outcome arranged
    | .error e => .error e d := by
  rw [arrange, Layout.arrange, EStateM.run_bind, EStateM.run_get]
  dsimp only
  cases d.cast.isEmpty with
  | true => rfl
  | false =>
    rw [if_neg Bool.false_ne_true, if_neg Bool.false_ne_true, EStateM.run_bind, run_looks]
    cases resolved : resolveEnds d with
    | error e => rfl
    | ok ends =>
      have places : d.messages.length = ends.length := (resolve_ends_eq_ok.mp resolved).length_eq
      have same : (Layout.placeHeaders measure page page.gutter d.cast.actors).length - 1 = d.cast.size - 1 := by
        rw [length_placeHeaders, Cast.size]
      have placed : (placeHeaders measure page (page.width / d.cast.size) (List.range d.cast.size) page.gutter).run d =
          .ok (overflows measure page d.cast)
            { d with cast := ⟨Layout.placeHeaders measure page page.gutter d.cast.actors⟩ } :=
        List.range_eq_range' ▸ @run_placeHeaders measure page d [] d.cast.actors page.gutter _
      have told := @run_turns measure { d with cast := ⟨Layout.placeHeaders measure page page.gutter d.cast.actors⟩ }
        ends _ [] d.messages places same
      dsimp only [ending]
      rw [EStateM.run_bind, placed]
      dsimp only
      rw [EStateM.run_bind]
      simp only [List.length_nil, List.nil_append] at told
      rw [told]
      rfl

end SequenceDiagram.Layout.Editing
