import Mathlib.Data.List.DropRight
import SequenceDiagram.Registry.History
import SequenceDiagram.Proofs.Layout.Filed
import SequenceDiagram.Proofs.Reading.Diagram

/-! A registry through its history. Whatever happens to it, refusals included, it keeps
the cast to which the same has happened. So its order and its table hold the same names,
and nobody is passed over where the one is asked first and the other then. -/
namespace SequenceDiagram

variable {r : Registry} {c : Cast} {edit : Actor → Actor} {name : Text} {place : Nat}

/-! ### Names -/

namespace Text

theorem head_trim (t : Text) (ch : Char) (first : t.trim.head? = some ch) : isBlank ch = false := by
  obtain ⟨rest, whole⟩ : t.trim <+: t.dropWhile isBlank := List.rdropWhile_prefix isBlank _
  have front : (t.dropWhile isBlank).head? = some ch := by
    rw [← whole, List.head?_append, first, Option.some_or]
  simpa [front] using List.head?_dropWhile_not isBlank t

theorem getLast_trim (t : Text) (ch : Char) (last : t.trim.getLast? = some ch) : isBlank ch = false := by
  obtain ⟨front, whole⟩ := List.getLast?_eq_some_iff.mp last
  have full : t.trim ≠ [] := by simp [whole]
  have visible : ¬isBlank (t.trim.getLast full) = true := List.rdropWhile_last_not isBlank _ full
  simpa [whole] using visible

/-- A name as it is taken from a token: no slash is in it, and no blank at its ends. -/
structure Tidy (name : Text) : Prop where
  slashless : '/' ∉ name
  first : ∀ ch, name.head? = some ch → isBlank ch = false
  last : ∀ ch, name.getLast? = some ch → isBlank ch = false

end Text

theorem Mention.tidy_nameOf (token : Text) : (nameOf token).Tidy where
  slashless slash := (Diagram.mem_of_mem_nameOf slash).2 rfl
  first := Text.head_trim _
  last := Text.getLast_trim _

/-! ### The cast through the same history -/

namespace Cast

theorem names_refer_eq (token : Text) (line : Nat) :
    (c.refer token line).2.names = (c.enroll (Mention.nameOf token)).names := by
  simp only [refer, Mention.ofToken]
  split
  · exact names_setLifespan
  · rfl

/-- A layout changes no names, whether it is made or refused. -/
theorem names_layout (measure : Measure) (page : Page) (messages : List Message) :
    (c.after (.layout measure page messages)).names = c.names := by
  simp only [after]
  cases nobody : c.isEmpty with
  | true => simp [Layout.arrange, nobody]
  | false =>
    cases done : Layout.arrange measure page { cast := c, messages } with
    | error e => rfl
    | ok arranged =>
      obtain ⟨ends, result⟩ := Layout.arranged_of_ok nobody done
      exact result.names_eq

/-- Names come with mentions only, one at a time, and stay. -/
theorem names_after (o : Occasion) : (c.after o).names = match o.name? with
    | some name => (c.enroll name).names
    | none => c.names := by
  cases o with
  | mention token line => exact names_refer_eq token line
  | cap line => exact names_cap line
  | place place slot =>
    refine List.ext_getElem? fun other => ?_
    simp only [Cast.after, Occasion.name?, names, List.getElem?_map, List.getElem?_modify]
    cases c.actors[other]? with
    | none => rfl
    | some a => by_cases here : place = other <;> simp [here]
  | layout measure page messages => exact names_layout measure page messages

/-- The names are those of all mentions, refused or not, in the order of the first. -/
theorem names_run (history : List Occasion) :
    (({} : Cast).run history).names = (history.filterMap Occasion.name?).eraseDups := by
  -- from the end: the last occasion finds the cast that the others have led to
  induction history using List.reverseRecOn with
  | nil => rfl
  | append_singleton earlier o ih =>
    have last : ({} : Cast).run (earlier ++ [o]) = (({} : Cast).run earlier).after o := by
      simp only [run, List.foldl_append, List.foldl_cons, List.foldl_nil]
    rw [last, names_after, List.filterMap_append]
    cases told : o.name? with
    | none => simp [told, ih]
    | some name =>
      simp only [names_enroll, ih, List.filterMap_cons_some told, List.filterMap_nil, eraseDups_concat, List.mem_eraseDups]

end Cast

/-! ### What the registry keeps -/

namespace Registry

/-- The order and the table of a registry are in step: they hold the same names, every
actor is stored under its own, and whoever asks the order first and the table then is
told of everybody. -/
structure InStep (r : Registry) : Prop where
  distinct : r.order.Nodup
  keys : r.table.keys.Perm r.order
  named : ∀ name a, r.find? name = some a → a.name = name
  placed : ∀ name place, r.indexOf? name = some place ↔ r.order[place]? = some name
  known : ∀ name, (r.find? name).isSome = (r.indexOf? name).isSome
  found : ∀ name, (r.indexOf? name).bind r.actorAt? = r.find? name
  listed : ∀ place, r.actors[place]? = r.actorAt? place
  names : r.actors.map Actor.name = r.order
  size : r.actors.length = r.size

theorem findIdx?_eq_some_iff_of_nodup {names : List Text} (distinct : names.Nodup) :
    names.findIdx? (· == name) = some place ↔ names[place]? = some name := by
  rw [List.findIdx?_eq_some_iff_getElem, List.getElem?_eq_some_iff]
  simp only [beq_iff_eq]
  constructor
  · rintro ⟨inside, same, _⟩
    exact ⟨inside, same⟩
  · rintro ⟨inside, same⟩
    refine ⟨inside, same, fun earlier before also => ?_⟩
    have here := (distinct.getElem_inj_iff).mp (also.trans same.symm)
    omega

namespace Keeps

variable (keeps : r.Keeps c)
include keeps

theorem mem_table : name ∈ r.table ↔ name ∈ r.order := by
  have listed : (r.find? name).isSome ↔ name ∈ c.names := by
    rw [keeps.find_eq, Option.isSome_iff_ne_none, ne_eq, Cast.find_eq_none_iff, not_not]
  rw [keeps.order, ← listed, Std.TreeMap.mem_iff_isSome_getElem?]
  rfl

theorem inStep : r.InStep := by
  have distinct : r.order.Nodup := keeps.order ▸ keeps.distinct
  have placed (name : Text) (place : Nat) : r.indexOf? name = some place ↔ r.order[place]? = some name :=
    findIdx?_eq_some_iff_of_nodup distinct
  have known (name : Text) : (r.find? name).isSome = (r.indexOf? name).isSome := by
    apply Bool.eq_iff_iff.mpr
    rw [indexOf?, List.findIdx?_isSome, find?, ← Std.TreeMap.mem_iff_isSome_getElem?, keeps.mem_table]
    simp
  refine ⟨distinct, ?_, fun name a stored => ?_, placed, known, fun name => ?_, fun place => ?_, ?_, ?_⟩
  · apply (List.perm_ext_iff_of_nodup Std.TreeMap.nodup_keys distinct).mpr
    exact fun name => Std.TreeMap.mem_keys.trans keeps.mem_table
  · rw [keeps.find_eq] at stored
    exact (Cast.mem_of_find stored).2
  · have also := known name
    cases index : r.indexOf? name with
    | none =>
      have missing : r.find? name = none := by simpa [index] using also
      rw [missing, Option.bind_none]
    | some place => simp [actorAt?, (placed name place).mp index]
  · rw [keeps.actors_eq, keeps.actorAt_eq, Cast.get?]
  · rw [keeps.actors_eq, keeps.order, Cast.names]
  · rw [keeps.actors_eq, keeps.size_eq, Cast.size]

/-- Actors of some names are changed in the table one after the other. -/
theorem changeEach {names : List Text} (distinct : names.Nodup) (same : ∀ a, (edit a).name = a.name) :
    (names.foldl (fun r name => r.change name edit) r).Keeps
      ⟨c.actors.map fun a => if a.name ∈ names then edit a else a⟩ := by
  induction names generalizing r c with
  | nil => simpa using keeps
  | cons name rest ih =>
    obtain ⟨fresh, distinct⟩ := List.nodup_cons.mp distinct
    have changed := ih (keeps.change same name) distinct
    have together : (c.actors.map fun a => if a.name ∈ name :: rest then edit a else a) =
        (c.actors.map fun a => if a.name == name then edit a else a).map fun a =>
          if a.name ∈ rest then edit a else a := by
      rw [List.map_map]
      refine List.map_congr_left fun a _ => ?_
      by_cases own : a.name = name
      · simp [own, same, fresh]
      · simp [own]
    rw [together]
    exact changed

theorem cap (line : Nat) : (r.cap line).Keeps (c.cap line) := by
  have each := @changeEach _ _ (fun a => { a with lifespan := a.lifespan.cap line }) keeps _ keeps.distinct fun _ => rfl
  have everybody : (c.actors.map fun a => if a.name ∈ c.names then { a with lifespan := a.lifespan.cap line } else a) =
      (c.cap line).actors := List.map_congr_left fun a member => if_pos (List.mem_map_of_mem member)
  rw [everybody, ← keeps.order] at each
  exact each

theorem after (o : Occasion) : (r.after o).Keeps (c.after o) := by
  cases o with
  | mention token line => exact (keeps.refer token line).2
  | cap line => exact keeps.cap line
  | place place slot => exact @Keeps.changeAt _ _ ({ · with slot := slot }) keeps (fun _ => rfl) place
  | layout measure page messages =>
    have held : Filed.Holds { registry := r, messages } { cast := c, messages } := ⟨keeps, rfl, rfl⟩
    have ended := @Layout.Filing.run_arrange measure page _ _ held
    simp only [Registry.after, Cast.after]
    generalize Layout.arrange measure page { cast := c, messages } = whole at ended ⊢
    cases whole <;>
    · obtain ⟨next, ran, holds⟩ := ended
      rw [ran]
      exact holds.keeps

theorem run (history : List Occasion) : (r.run history).Keeps (c.run history) := by
  induction history generalizing r c with
  | nil => exact keeps
  | cons o history ih => exact ih (keeps.after o)

end Keeps

/-- A mention, accepted or refused, is answered about its own name, and the name is in
the order from then on. -/
theorem Keeps.answer (keeps : r.Keeps c) (token : Text) (line : Nat) :
    Mention.nameOf token ∈ (r.refer token line).2.order ∧ match (r.refer token line).1 with
      | .ok name => name = Mention.nameOf token
      | .error e => e.name = Mention.nameOf token := by
  constructor
  · rw [(keeps.refer token line).2.order, Cast.names_refer_eq, Cast.names_enroll]
    split
    · assumption
    · simp
  · simp only [Registry.refer, Mention.ofToken]
    cases ((r.enroll _).lifespanOf _).mention (Mention.markerOf token) line <;> rfl

end Registry

/-- The order and the table of a registry never drift apart. Whatever happens to it from
the empty one on, mentions accepted or refused, lives ended, actors placed, layouts made
or refused: the order has the names of all mentions, each once and as it came first, the
table has an actor under each of them and under no other, and every look-up by name or
by place finds the same actor. Nobody is lost on the way: the actors in order are those
of the cast to which the same has happened. All names are without slashes and without
blanks at their ends, those too that an answer gives. -/
theorem order_and_table_in_step (history : List Occasion) :
    let r := ({} : Registry).run history
    r.InStep ∧ r.order = (history.filterMap Occasion.name?).eraseDups ∧
      r.actors = (({} : Cast).run history).actors ∧ (∀ name ∈ r.order, name.Tidy) ∧
      ∀ token line, ∃ name ∈ (r.refer token line).2.order, name.Tidy ∧ match (r.refer token line).1 with
        | .ok answer => answer = name
        | .error e => e.name = name := by
  intro r
  have keeps : r.Keeps (({} : Cast).run history) := Registry.Keeps.empty.run history
  have order : r.order = (history.filterMap Occasion.name?).eraseDups := keeps.order.trans (Cast.names_run history)
  refine ⟨keeps.inStep, order, keeps.actors_eq, fun name member => ?_, fun token line => ?_⟩
  · rw [order, List.mem_eraseDups] at member
    obtain ⟨o, _, told⟩ := List.mem_filterMap.mp member
    cases o with
    | mention token line =>
      cases told
      exact Mention.tidy_nameOf token
    | cap | place | layout => cases told
  · obtain ⟨enrolled, about⟩ := keeps.answer token line
    exact ⟨_, enrolled, Mention.tidy_nameOf token, about⟩

/-- An actor whose first mention is refused, a layout for a message to nobody, one that is
made, and a slot for a place where nobody stands. -/
def unsteady : List Occasion :=
  [.mention "/Amy ".toList 1, .mention "Bob".toList 1,
    .layout .cells { width := 40 } [⟨⟨.thin, false⟩, "Bob".toList, "Cy".toList, "hi".toList, none⟩], .cap 2,
    .mention " B/ob".toList 3, .mention "\tCy/".toList 3, .mention "Cy".toList 4, .mention "Bob/".toList 4,
    .layout .cells { width := 40 } [⟨⟨.thin, false⟩, "Bob".toList, "Amy".toList, "hi".toList, none⟩],
    .place 2 { left := 90 }, .place 3 {}, .cap 5]

theorem order_and_table_in_step_unsteady :
    let r := ({} : Registry).run unsteady
    r.order = ["Amy".toList, "Bob".toList, "Cy".toList] ∧
      r.table.keys.Perm ["Bob".toList, "Cy".toList, "Amy".toList] ∧ r.indexOf? "Cy".toList = some 2 ∧
      r.actorAt? 2 = r.find? "Cy".toList ∧ r.find? "Dan".toList = none ∧
      r.actors.map (fun a => (a.mid, a.lifespan.marks)) = [(21, []), (54, [1, -2, 3, -5]), (90, [3, -3, 4, -5])] ∧
      Text.Tidy "Bob".toList := by
  obtain ⟨inStep, order, actors, tidy, _⟩ := order_and_table_in_step unsteady
  have names : (({} : Registry).run unsteady).order = ["Amy".toList, "Bob".toList, "Cy".toList] :=
    order.trans (by decide)
  have third : (({} : Registry).run unsteady).indexOf? "Cy".toList = some 2 := by
    apply (inStep.placed _ _).mpr
    rw [names]
    rfl
  have nobody : (({} : Registry).run unsteady).indexOf? "Dan".toList = none := by
    rw [Registry.indexOf?, names]
    decide
  refine ⟨names, ?_, third, ?_, ?_, ?_, tidy _ ?_⟩
  · exact (names ▸ inStep.keys).trans (by decide)
  · have found := inStep.found "Cy".toList
    rwa [third] at found
  · have known := inStep.known "Dan".toList
    rw [nobody] at known
    exact Option.not_isSome_iff_eq_none.mp (Bool.eq_false_iff.mp known)
  · rw [actors]
    decide
  · rw [names]
    decide

end SequenceDiagram
