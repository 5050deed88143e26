import SequenceDiagram.Cast
import SequenceDiagram.Proofs.Reading.Lifespan

/-! The cast while a text is read. Names stay distinct, an accepted mention
extends the life of the actor that it names, and every other life stays as it
was. -/
namespace SequenceDiagram.Cast
open Lifespan

variable {c next : Cast} {name token : Text} {life : Lifespan} {now line : Nat} {a : Actor}

/-- Actors with distinct names, each of whom has been mentioned and whose life
is on record up to the present line. -/
structure Recorded (c : Cast) (now : Nat) : Prop where
  distinct : c.names.Nodup
  lives : ∀ a ∈ c.actors, ∃ lines, a.lifespan.Records lines now ∧ lines ≠ []

/-- Every life is on record up to the present line, also that of an actor of whom
every mention has been refused. -/
def OnRecord (c : Cast) (now : Nat) : Prop := ∀ a ∈ c.actors, ∃ lines, a.lifespan.Records lines now

theorem find_eq_none_iff : c.find? name = none ↔ name ∉ c.names := by
  simp only [find?, names, List.find?_eq_none, List.mem_map, beq_iff_eq, not_exists, not_and]

theorem mem_of_find (found : c.find? name = some a) : a ∈ c.actors ∧ a.name = name :=
  ⟨List.mem_of_find?_eq_some found, by simpa using List.find?_some found⟩

theorem names_setLifespan : (c.setLifespan name life).names = c.names := by
  rw [setLifespan, names, names, List.map_map]
  refine List.map_congr_left fun a _ => ?_
  simp only [Function.comp_apply]
  split <;> rfl

theorem mem_setLifespan (member : a ∈ (c.setLifespan name life).actors) :
    (a.name = name ∧ a.lifespan = life) ∨ (a ∈ c.actors ∧ a.name ≠ name) := by
  obtain ⟨earlier, held, changed⟩ := List.mem_map.mp member
  by_cases named : earlier.name = name
  · rw [if_pos (by simpa using named)] at changed
    exact .inl (changed ▸ ⟨named, rfl⟩)
  · rw [if_neg (by simpa using named)] at changed
    exact .inr (changed ▸ ⟨held, named⟩)

/-- A name is enrolled at the end and only once. -/
theorem names_enroll : (c.enroll name).names = if name ∈ c.names then c.names else c.names ++ [name] := by
  rw [enroll]
  by_cases held : name ∈ c.names
  · have found : (c.find? name).isSome := by
      rw [Option.isSome_iff_ne_none, ne_eq, find_eq_none_iff]
      exact not_not_intro held
    rw [if_pos found, if_pos held]
  · have missing : ¬(c.find? name).isSome := by
      rw [find_eq_none_iff.mpr held]
      exact Bool.false_ne_true
    rw [if_neg missing, if_neg held, names, List.map_append]
    rfl

/-- A name behind others is a new one, or has its place among them. -/
theorem eraseDups_concat (names : List Text) (name : Text) :
    (names ++ [name]).eraseDups = if name ∈ names then names.eraseDups else names.eraseDups ++ [name] := by
  rw [List.eraseDups_append]
  split
  · rename_i held
    simp [List.removeAll, held]
  · rename_i missing
    simp [List.removeAll, missing, List.eraseDups_cons]

theorem distinct_enroll (distinct : c.names.Nodup) : (c.enroll name).names.Nodup := by
  rw [names_enroll]
  split
  · exact distinct
  · rename_i missing
    refine List.nodup_append.mpr ⟨distinct, by simp, ?_⟩
    intro other held _ same equal
    rw [List.mem_singleton.mp same] at equal
    exact missing (equal ▸ held)

theorem mem_enroll (member : a ∈ (c.enroll name).actors) :
    a ∈ c.actors ∨ (a = { name := name } ∧ name ∉ c.names) := by
  rw [enroll] at member
  split at member
  · exact .inl member
  · rename_i missing
    rcases List.mem_append.mp member with held | same
    · exact .inl held
    · refine .inr ⟨List.mem_singleton.mp same, find_eq_none_iff.mp ?_⟩
      simpa using missing

theorem lifespanOf_enroll (other : Text) : (c.enroll name).lifespanOf other = c.lifespanOf other := by
  rw [enroll]
  split
  · rfl
  · rename_i missing
    rw [lifespanOf, lifespanOf, find?, find?, List.find?_append]
    cases found : c.actors.find? (·.name == other) with
    | some a => rfl
    | none =>
      rw [Option.none_or, List.find?_singleton]
      split <;> rfl

/-- Another life is the life of its actor alone. -/
theorem lifespanOf_setLifespan (held : name ∈ c.names) (other : Text) :
    (c.setLifespan name life).lifespanOf other = if other = name then life else c.lifespanOf other := by
  have sameNames : ((·.name == other) ∘ fun a : Actor => if a.name == name then { a with lifespan := life } else a) =
      (·.name == other) := by
    funext a
    simp only [Function.comp_apply]
    split <;> rfl
  rw [lifespanOf, lifespanOf, find?, find?, setLifespan, List.find?_map, sameNames]
  cases found : c.actors.find? (·.name == other) with
  | none =>
    have apart : other ≠ name := fun same => find_eq_none_iff.mp found (same ▸ held)
    rw [if_neg apart]
    rfl
  | some a =>
    have named : a.name = other := by simpa using List.find?_some found
    subst named
    by_cases same : a.name = name <;> simp [same]

/-- What an accepted mention does: its actor is enrolled if new, and lives on as
the marker says. -/
theorem refer_eq_ok (done : c.refer token line = (.ok name, next)) :
    name = (Mention.ofToken token).name ∧
      ∃ life, ((c.enroll name).lifespanOf name).mention (Mention.ofToken token).marker line = .ok life ∧
        next = (c.enroll name).setLifespan name life := by
  simp only [refer] at done
  split at done
  · rename_i life mentioned
    cases done
    exact ⟨rfl, life, mentioned, rfl⟩
  · cases done

/-- A mention that is accepted changes one life, and that as the marker says. -/
theorem lifespanOf_refer (done : c.refer token line = (.ok name, next)) :
    (c.lifespanOf name).mention (Mention.ofToken token).marker line = .ok (next.lifespanOf name) ∧
      ∀ other ≠ name, next.lifespanOf other = c.lifespanOf other := by
  obtain ⟨_, life, mentioned, rfl⟩ := refer_eq_ok done
  have held : name ∈ (c.enroll name).names := by
    rw [names_enroll]
    split
    · assumption
    · simp
  refine ⟨?_, fun other apart => ?_⟩
  · rw [lifespanOf_setLifespan held, if_pos rfl, ← mentioned, lifespanOf_enroll]
  · rw [lifespanOf_setLifespan held, if_neg apart, lifespanOf_enroll]

theorem names_cap (line : Nat) : (c.cap line).names = c.names := by
  rw [cap, names, List.map_map]
  rfl

theorem lifespanOf_cap (line : Nat) : (c.cap line).lifespanOf name = (c.lifespanOf name).cap line := by
  rw [lifespanOf, lifespanOf, find?, find?, cap, List.find?_map]
  have sameNames : ((·.name == name) ∘ fun a : Actor => { a with lifespan := a.lifespan.cap line }) =
      (·.name == name) := rfl
  rw [sameNames]
  cases c.actors.find? (·.name == name) <;> rfl

namespace OnRecord

theorem empty (now : Nat) : ({} : Cast).OnRecord now := List.forall_mem_nil _

/-- Whatever the name, the life that a mention finds is on record. -/
theorem lifespanOf (record : c.OnRecord now) (name : Text) :
    ∃ lines, (c.lifespanOf name).Records lines now := by
  rw [Cast.lifespanOf]
  cases found : c.find? name with
  | none => exact ⟨[], .empty now⟩
  | some a => exact record a (mem_of_find found).1

theorem later (record : c.OnRecord now) (order : now ≤ line) : c.OnRecord line := by
  intro a member
  obtain ⟨lines, lived⟩ := record a member
  exact ⟨lines, lived.later order⟩

theorem enroll (record : c.OnRecord now) (name : Text) : (c.enroll name).OnRecord now := by
  intro a member
  rcases mem_enroll member with held | ⟨rfl, _⟩
  · exact record a held
  · exact ⟨[], .empty now⟩

/-- A mention keeps the lives on record, be it accepted or refused. -/
theorem refer (record : c.OnRecord now) (order : now ≤ line) (first : 1 ≤ line) (token : Text) :
    (c.refer token line).2.OnRecord line := by
  have enrolled := (record.enroll (Mention.ofToken token).name).later order
  simp only [Cast.refer]
  split
  · rename_i life mentioned
    obtain ⟨lines, lived⟩ := enrolled.lifespanOf (Mention.ofToken token).name
    obtain ⟨more, extended, _⟩ := lived.mention (Nat.le_refl _) first mentioned
    intro a member
    rcases mem_setLifespan member with ⟨_, rfl⟩ | ⟨held, _⟩
    · exact ⟨lines ++ more, extended⟩
    · exact enrolled a held
  · exact enrolled

end OnRecord

namespace Recorded

theorem empty : ({} : Cast).Recorded 0 := ⟨.nil, fun _ member => nomatch member⟩

theorem onRecord (record : c.Recorded now) : c.OnRecord now := fun a member =>
  (record.lives a member).imp fun _ lived => lived.1

theorem lifespanOf (record : c.Recorded now) (name : Text) :
    ∃ lines, (c.lifespanOf name).Records lines now := record.onRecord.lifespanOf name

/-- An accepted mention keeps the cast on record, whose names are those from
before with the new one, if it is new, at the end. -/
theorem refer (record : c.Recorded now) (order : now ≤ line) (first : 1 ≤ line)
    (done : c.refer token line = (.ok name, next)) :
    next.Recorded line ∧
      next.names = if name ∈ c.names then c.names else c.names ++ [name] := by
  obtain ⟨_, life, mentioned, rfl⟩ := refer_eq_ok done
  obtain ⟨lines, lived⟩ := record.lifespanOf name
  rw [lifespanOf_enroll] at mentioned
  obtain ⟨more, lives, spans, _⟩ := lived.mention order first mentioned
  have recorded : lines ++ more ≠ [] := fun none => by
    rw [none] at spans
    exact spans
  refine ⟨⟨?_, ?_⟩, names_setLifespan.trans names_enroll⟩
  · rw [names_setLifespan]
    exact distinct_enroll record.distinct
  · intro a member
    rcases mem_setLifespan member with ⟨_, rfl⟩ | ⟨held, other⟩
    · exact ⟨lines ++ more, lives, recorded⟩
    · rcases mem_enroll held with held | ⟨rfl, _⟩
      · obtain ⟨lines, lived, recorded⟩ := record.lives a held
        exact ⟨lines, lived.later order, recorded⟩
      · exact absurd rfl other

/-- An accepted mention is an event in the life of its actor, and no life loses
an event by it. -/
theorem attends_refer (record : c.Recorded now) (order : now ≤ line) (first : 1 ≤ line)
    (done : c.refer token line = (.ok name, next)) :
    (next.lifespanOf name).Attends line line ∧
      ∀ other earlier, earlier ≤ line → (c.lifespanOf other).Attends earlier now →
        (next.lifespanOf other).Attends earlier line := by
  obtain ⟨mentioned, others⟩ := lifespanOf_refer done
  obtain ⟨lines, lived⟩ := record.lifespanOf name
  refine ⟨lived.attends order first mentioned, fun other earlier past attends => ?_⟩
  by_cases same : other = name
  · subst same
    exact attends.mention past order first mentioned
  · rw [others other same]
    exact attends.later order

end Recorded

end SequenceDiagram.Cast
