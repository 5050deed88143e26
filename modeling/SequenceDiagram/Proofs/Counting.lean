import Mathlib.Data.List.Forall2
import SequenceDiagram.Counting

/-! What a counted run ends with. A run may end early because a number cannot be
counted; where it comes to its end, its result is to be the one of the definition
that counts without end. The rules go along with the run, step by step. -/
namespace SequenceDiagram

variable {α β : Type} {n : Counting} {o other : Option α} {a b : α} {number k : Nat}

/-- Many runs come to their end when each of them does. -/
theorem mapM_eq_some_iff {f : α → Option β} {g : α → β} {P : α → Prop} (each : ∀ a b, f a = some b ↔ P a ∧ g a = b)
    {as : List α} {bs : List β} : as.mapM f = some bs ↔ (∀ a ∈ as, P a) ∧ as.map g = bs := by
  induction as generalizing bs with
  | nil => simp
  | cons a rest ih =>
    simp only [List.mapM_cons, Option.bind_eq_bind, Option.bind_eq_some_iff, Option.pure_def, Option.some.injEq, each,
      ih, List.forall_mem_cons, List.map_cons]
    constructor
    · rintro ⟨_, ⟨first, rfl⟩, _, ⟨others, rfl⟩, rfl⟩
      exact ⟨⟨first, others⟩, rfl⟩
    · rintro ⟨⟨first, others⟩, rfl⟩
      exact ⟨_, ⟨first, rfl⟩, _, ⟨others, rfl⟩, rfl⟩

theorem mapM_eq_some_map {f : α → Option β} {g : α → β} {as : List α} (each : ∀ a ∈ as, f a = some (g a)) :
    as.mapM f = some (as.map g) := by
  induction as with
  | nil => rfl
  | cons a rest ih =>
    have first := each a List.mem_cons_self
    have others := ih fun b member => each b (List.mem_cons_of_mem a member)
    rw [List.mapM_cons, first, others]
    rfl

theorem exists_of_mapM {f : α → Option β} {as : List α} {bs : List β} (done : as.mapM f = some bs) :
    ∀ a ∈ as, ∃ b, f a = some b := by
  induction as generalizing bs with
  | nil => exact fun a member => by cases member
  | cons a rest ih =>
    simp only [List.mapM_cons, Option.bind_eq_bind, Option.bind_eq_some_iff] at done
    obtain ⟨b, first, others, ran, -⟩ := done
    exact List.forall_mem_cons.mpr ⟨⟨b, first⟩, ih ran⟩

/-- A run that comes to its end has this result. -/
def Yields (o : Option α) (a : α) : Prop := ∀ b, o = some b → b = a

namespace Yields

theorem of_some (same : a = b) : Yields (some a) b := fun _ done => (Option.some.inj done).symm.trans same

theorem of_none : Yields none a := fun _ done => by cases done

theorem eq_some (sound : Yields o a) (ended : o.isSome = true) : o = some a := by
  obtain ⟨b, done⟩ := Option.isSome_iff_exists.mp ended
  rw [done, sound b done]

theorem count : Yields (n.count? number) number := fun _ done => (Counting.count?_eq_some_iff.mp done).2.symm

theorem minus : Yields (minus? number k) (number - k) := by
  rw [minus?]
  split
  · exact of_some rfl
  · exact of_none

/-- One step after the other. -/
theorem bind {f : α → Option β} {b : β} (first : Yields o a) (next : Yields (f a) b) : Yields (o >>= f) b := by
  cases done : o with
  | none => exact of_none
  | some c =>
    cases first c done
    exact next

theorem map {f : α → β} (first : Yields o a) : Yields (o.map f) (f a) := by
  intro b done
  obtain ⟨c, counted, rfl⟩ := Option.map_eq_some_iff.mp done
  rw [first c counted]

theorem ite {P : Prop} [Decidable P] (yes : P → Yields o a) (no : ¬P → Yields other b) :
    Yields (if P then o else other) (if P then a else b) := by
  split
  · exact yes ‹_›
  · exact no ‹_›

theorem mapM {f : α → Option β} {g : α → β} {as : List α} (each : ∀ a ∈ as, Yields (f a) (g a)) :
    Yields (as.mapM f) (as.map g) := by
  induction as with
  | nil => exact of_some rfl
  | cons a rest ih =>
    rw [List.mapM_cons]
    refine bind (each a List.mem_cons_self) (bind (ih ?_) (of_some rfl))
    exact fun b member => each b (List.mem_cons_of_mem a member)

/-- The results of single runs are among the results of all. -/
theorem mem_of_some {os : List (Option α)} {as : List α} (each : List.Forall₂ Yields os as) (ran : some a ∈ os) :
    a ∈ as := by
  induction each with
  | nil => cases ran
  | @cons o b others rest sound _ ih =>
    rcases List.mem_cons.mp ran with first | later
    · rw [sound a first.symm]
      exact List.mem_cons_self
    · exact List.mem_cons_of_mem b (ih later)

/-- Runs that all come to their end have all their results. -/
theorem all_eq_some {os : List (Option α)} {as : List α} (each : List.Forall₂ Yields os as)
    (ended : ∀ o ∈ os, o.isSome = true) : os.mapM id = some as := by
  induction each with
  | nil => rfl
  | @cons o a others rest sound _ ih =>
    obtain ⟨first, behind⟩ := List.forall_mem_cons.mp ended
    rw [List.mapM_cons, id_eq, sound.eq_some first, ih behind]
    rfl

end Yields

end SequenceDiagram
