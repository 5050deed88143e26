import Mathlib.Data.List.Nodup
import SequenceDiagram.Registry
import SequenceDiagram.Proofs.Reading.Independence

/-! The registry of a cast. Its two containers never drift apart: a name is in the
order if and only if the table has an actor under it, and that actor has the name. So
whatever is looked up by name or by place is what the cast has there, and the sorting
of the table shows nowhere. -/
namespace SequenceDiagram.Registry

variable {r : Registry} {c : Cast} {name other token : Text} {line place : Nat} {a : Actor} {edit : Actor → Actor}

/-- The registry has the names of the cast in order, and each of its actors in the
table, and nobody else. -/
structure Keeps (r : Registry) (c : Cast) : Prop where
  order : r.order = c.names
  distinct : c.names.Nodup
  stored : ∀ a ∈ c.actors, r.find? a.name = some a
  listed : ∀ name ∉ c.names, r.find? name = none

theorem find_change : (r.change name edit).find? other =
    if name = other then (r.find? other).map edit else r.find? other := by
  rw [find?, Registry.change, Std.TreeMap.getElem?_modify]
  simp only [Std.LawfulEqCmp.compare_eq_iff_eq]
  split
  · rename_i same
    subst same
    rfl
  · rfl

theorem find_insert (r : Registry) (order : List Text) (name : Text) (a : Actor) (other : Text) :
    Registry.find? { order, table := r.table.insert name a } other = if name = other then some a else r.find? other := by
  rw [find?, Std.TreeMap.getElem?_insert, find?]
  simp only [Std.LawfulEqCmp.compare_eq_iff_eq]

/-- Names are as good as places where they are distinct. -/
theorem modify_eq_map (distinct : c.names.Nodup) (held : c.actors[place]? = some a) (edit : Actor → Actor) :
    c.actors.modify place edit = c.actors.map fun b => if b.name == a.name then edit b else b := by
  have named : c.names[place]? = some a.name := by rw [Cast.names, List.getElem?_map, held, Option.map_some]
  refine List.ext_getElem? fun i => ?_
  rw [List.getElem?_modify, List.getElem?_map]
  cases found : c.actors[i]? with
  | none => rfl
  | some b =>
    have alike : c.names[i]? = some b.name := by rw [Cast.names, List.getElem?_map, found, Option.map_some]
    simp only [Option.map_some, Option.map_eq_map, beq_iff_eq]
    by_cases here : place = i
    · subst here
      cases held.symm.trans found
      simp
    · have inside := (List.getElem?_eq_some_iff.mp named).1
      have apart : b.name ≠ a.name := fun same =>
        here ((List.getElem?_inj inside distinct).mp (named.trans (same ▸ alike.symm)))
      rw [if_neg here, if_neg apart]

namespace Keeps

theorem empty : ({} : Registry).Keeps {} where
  order := rfl
  distinct := .nil
  stored _ none := nomatch none
  listed _ _ := by simp [Registry.find?]

variable (keeps : r.Keeps c)
include keeps

theorem find_eq (name : Text) : r.find? name = c.find? name := by
  cases found : c.find? name with
  | none => exact keeps.listed name (Cast.find_eq_none_iff.mp found)
  | some a =>
    obtain ⟨member, named⟩ := Cast.mem_of_find found
    exact named ▸ keeps.stored a member

theorem lifespanOf_eq (name : Text) : r.lifespanOf name = c.lifespanOf name := by
  rw [lifespanOf, Cast.lifespanOf, keeps.find_eq]

theorem indexOf_eq (name : Text) : r.indexOf? name = c.indexOf? name := by
  rw [indexOf?, Cast.indexOf?, keeps.order, Cast.names, List.findIdx?_map]
  rfl

theorem size_eq : r.size = c.size := by
  rw [size, keeps.order, Cast.names, List.length_map, Cast.size]

theorem isEmpty_eq : r.isEmpty = c.isEmpty := by
  rw [isEmpty, keeps.order, Cast.names, List.isEmpty_map, Cast.isEmpty]

theorem actorAt_eq (place : Nat) : r.actorAt? place = c.get? place := by
  rw [actorAt?, keeps.order, Cast.names, List.getElem?_map, Cast.get?]
  cases held : c.actors[place]? with
  | none => rfl
  | some a => exact keeps.stored a (List.mem_of_getElem? held)

theorem actors_eq : r.actors = c.actors := by
  rw [actors, keeps.order, Cast.names, List.filterMap_map]
  exact (List.filterMap_congr fun a member => keeps.stored a member).trans List.filterMap_some

/-- An actor is changed in the table under its name. -/
theorem change (same : ∀ a, (edit a).name = a.name) (name : Text) :
    (r.change name edit).Keeps ⟨c.actors.map fun a => if a.name == name then edit a else a⟩ := by
  have names : (Cast.mk (c.actors.map fun a => if a.name == name then edit a else a)).names = c.names := by
    rw [Cast.names, List.map_map]
    refine List.map_congr_left fun a _ => ?_
    simp only [Function.comp_apply]
    split
    · exact same a
    · rfl
  refine ⟨keeps.order.trans names.symm, names ▸ keeps.distinct, ?_, ?_⟩
  · intro b member
    obtain ⟨a, held, rfl⟩ := List.mem_map.mp member
    have stored := keeps.stored a held
    by_cases named : a.name = name
    · subst named
      simp [find_change, same, stored]
    · simp [find_change, named, Ne.symm named, stored]
  · intro other missing
    rw [names] at missing
    rw [find_change, keeps.listed other missing]
    split <;> rfl

theorem changeAt (same : ∀ a, (edit a).name = a.name) (place : Nat) :
    (r.changeAt place edit).Keeps ⟨c.actors.modify place edit⟩ := by
  rw [Registry.changeAt, keeps.order, Cast.names, List.getElem?_map]
  cases held : c.actors[place]? with
  | none =>
    rw [List.modify_eq_self (List.getElem?_eq_none_iff.mp held)]
    exact keeps
  | some a =>
    rw [modify_eq_map keeps.distinct held]
    exact keeps.change same a.name

theorem enroll (name : Text) : (r.enroll name).Keeps (c.enroll name) := by
  have known : name ∈ r.table ↔ (c.find? name).isSome := by
    rw [← keeps.find_eq, find?, Std.TreeMap.mem_iff_isSome_getElem?]
  rw [Registry.enroll, Cast.enroll]
  by_cases held : (c.find? name).isSome
  · rw [if_pos (known.mpr held), if_pos held]
    exact keeps
  · rw [if_neg (mt known.mp held), if_neg held]
    have missing : name ∉ c.names := Cast.find_eq_none_iff.mp (Option.not_isSome_iff_eq_none.mp held)
    have names : (Cast.mk (c.actors ++ [{ name := name }])).names = c.names ++ [name] := by
      rw [Cast.names, List.map_append, Cast.names]
      rfl
    have found := find_insert r (r.order ++ [name]) name { name := name }
    refine ⟨?_, ?_, ?_, ?_⟩
    · rw [names, keeps.order]
    · rw [names]
      exact List.nodup_append.mpr ⟨keeps.distinct, List.nodup_singleton name, by
        intro earlier held _ last same
        exact missing (List.mem_singleton.mp last ▸ same ▸ held)⟩
    · intro a member
      rw [found]
      rcases List.mem_append.mp member with member | last
      · have apart : name ≠ a.name := fun same => missing (same ▸ List.mem_map_of_mem member)
        rw [if_neg apart, keeps.stored a member]
      · rw [List.mem_singleton.mp last, if_pos rfl]
    · intro other unlisted
      rw [names, List.mem_append, List.mem_singleton, not_or] at unlisted
      rw [found, if_neg (Ne.symm unlisted.2), keeps.listed other unlisted.1]

/-- A mention is answered from the registry as from the cast, and is the same change
to both. -/
theorem refer (token : Text) (line : Nat) : (r.refer token line).1 = (c.refer token line).1 ∧
    (r.refer token line).2.Keeps (c.refer token line).2 := by
  have enrolled := keeps.enroll (Mention.ofToken token).name
  simp only [Registry.refer, Cast.refer, enrolled.lifespanOf_eq]
  cases ((c.enroll _).lifespanOf _).mention (Mention.ofToken token).marker line with
  | ok life => exact ⟨rfl, @Keeps.change _ _ ({ · with lifespan := life }) enrolled (fun _ => rfl) _⟩
  | error fault => exact ⟨rfl, enrolled⟩

theorem referAll (mentions : List (Text × Nat)) : (r.referAll mentions).1 = (c.referAll mentions).1 ∧
    (r.referAll mentions).2.Keeps (c.referAll mentions).2 := by
  induction mentions generalizing r c with
  | nil => exact ⟨rfl, keeps⟩
  | cons mention mentions ih =>
    obtain ⟨answer, next⟩ := keeps.refer mention.1 mention.2
    obtain ⟨answers, last⟩ := ih next
    simp only [Registry.referAll, Cast.referAll]
    exact ⟨congrArg₂ List.cons answer answers, last⟩

end Keeps

end SequenceDiagram.Registry
