import Mathlib.Data.List.DropRight
import Mathlib.Data.Set.Function
import SequenceDiagram.Proofs.Reading.Independence

/-! Actors under other names. A renaming that tells the names apart which are in use
takes every step of a cast along: who is found, who is enrolled and which mention is
refused does not depend on what the names are. -/
namespace SequenceDiagram

/-- A name that is left as it is when its token is read: it has a character, no blanks
at its ends and no slashes. -/
structure Text.Bare (t : Text) : Prop where
  nonempty : t ≠ []
  trimmed : t.trim = t
  slashless : '/' ∉ t

namespace Text

variable {t : Text}

theorem trim_eq_self (nonempty : t ≠ []) (first : isBlank (t.head nonempty) = false)
    (last : isBlank (t.getLast nonempty) = false) : t.trim = t := by
  have front : t.dropWhile isBlank = t := List.dropWhile_eq_self_iff.mpr fun _ => by
    rw [← List.head_eq_getElem nonempty, first]
    exact Bool.false_ne_true
  have back : t.rdropWhile isBlank = t := List.rdropWhile_eq_self_iff.mpr fun _ => by
    rw [last]
    exact Bool.false_ne_true
  rw [trim, front]
  exact back

namespace Bare

variable (bare : t.Bare)
include bare

theorem dropWhile_eq : t.dropWhile isBlank = t := by
  refine (List.dropWhile_suffix _).eq_of_length_le ?_
  have front := List.rdropWhile_prefix isBlank (t.dropWhile isBlank)
  have short := front.length_le
  have whole : (t.dropWhile isBlank).rdropWhile isBlank = t := bare.trimmed
  rwa [whole] at short

theorem first_visible : isBlank (t.head bare.nonempty) = false := by
  have first := List.dropWhile_eq_self_iff.mp bare.dropWhile_eq (List.length_pos_iff.mpr bare.nonempty)
  rw [← List.head_eq_getElem bare.nonempty] at first
  exact Bool.eq_false_of_not_eq_true first

theorem last_visible : isBlank (t.getLast bare.nonempty) = false := by
  have whole : t.rdropWhile isBlank = t := by
    have trimmed := bare.trimmed
    rwa [trim, bare.dropWhile_eq] at trimmed
  exact Bool.eq_false_of_not_eq_true (List.rdropWhile_eq_self_iff.mp whole bare.nonempty)

theorem head_ne : (t.head? == some '/') = false :=
  beq_eq_false_iff_ne.mpr fun same => bare.slashless (List.mem_of_head? same)

theorem getLast_ne : (t.getLast? == some '/') = false :=
  beq_eq_false_iff_ne.mpr fun same => bare.slashless (List.mem_of_getLast? same)

theorem filter_eq : t.filter (· != '/') = t :=
  List.filter_eq_self.mpr fun _ member => bne_iff_ne.mpr fun same => bare.slashless (same ▸ member)

end Bare

end Text

/-- The token that asks for a name in the way of a marker. -/
def Marker.spell : Marker → Text → Text
  | .plain, name => name
  | .ending, name => '/' :: name
  | .oneShot, name => name ++ ['/']
  | .ambiguous, name => '/' :: name ++ ['/']

/-- The token that writes a mention. -/
def Mention.token (m : Mention) : Text := m.marker.spell m.name

namespace Text.Bare

variable {t : Text} (bare : t.Bare) (marker : Marker)
include bare

theorem trim_spell : trim (marker.spell t) = marker.spell t := by
  have slash : isBlank '/' = false := by decide
  cases marker with
  | plain => exact bare.trimmed
  | ending =>
    rw [Marker.spell]
    refine trim_eq_self (List.cons_ne_nil _ _) slash ?_
    rw [List.getLast_cons bare.nonempty]
    exact bare.last_visible
  | oneShot =>
    rw [Marker.spell]
    refine trim_eq_self (List.append_ne_nil_of_left_ne_nil bare.nonempty _) ?_ ?_
    · rw [List.head_append_of_ne_nil bare.nonempty]
      exact bare.first_visible
    · rw [List.getLast_append_singleton]
      exact slash
  | ambiguous =>
    rw [Marker.spell]
    refine trim_eq_self (List.cons_ne_nil _ _) slash ?_
    rw [List.getLast_append_singleton]
    exact slash

theorem nameOf_spell : Mention.nameOf (marker.spell t) = t := by
  cases marker <;> simp [Mention.nameOf, Marker.spell, bare.filter_eq, bare.trimmed]

theorem markerOf_spell : Mention.markerOf (marker.spell t) = marker := by
  have long := List.length_pos_iff.mpr bare.nonempty
  rw [Mention.markerOf, bare.trim_spell]
  cases marker with
  | plain => simp [Marker.spell, bare.head_ne, bare.getLast_ne]
  | ending => simp [Marker.spell, List.getLast?_cons_of_ne_nil bare.nonempty, bare.getLast_ne]
  | oneShot => simp [Marker.spell, List.head?_append_of_ne_nil _ bare.nonempty, bare.head_ne, long]
  | ambiguous =>
    have last : (('/' :: t ++ ['/']).getLast? == some '/') = true := by rw [List.getLast?_concat, beq_self_eq_true]
    rw [Marker.spell, last]
    simp

end Text.Bare

/-- A mention is read as it is written. -/
theorem Mention.ofToken_token {m : Mention} (bare : m.name.Bare) : ofToken m.token = m := by
  rw [ofToken, token, bare.nameOf_spell, bare.markerOf_spell]

/-! ### Renaming -/

def Mention.rename (f : Text → Text) (m : Mention) : Mention := { m with name := f m.name }

def Actor.rename (f : Text → Text) (a : Actor) : Actor := { a with name := f a.name }

def LifecycleError.rename (f : Text → Text) (e : LifecycleError) : LifecycleError := { e with name := f e.name }

/-- The answer to a mention, about the same actor under another name. -/
def renameAnswer (f : Text → Text) : Except LifecycleError Text → Except LifecycleError Text
  | .ok name => .ok (f name)
  | .error e => .error (e.rename f)

namespace Cast

/-- Every actor has another name, and its life and its place as before. -/
def rename (f : Text → Text) (c : Cast) : Cast := ⟨c.actors.map (Actor.rename f)⟩

variable {f : Text → Text} {known : Set Text} {c : Cast} {name : Text} {m : Mention}

theorem names_rename : (c.rename f).names = c.names.map f := by
  rw [names, names, rename, List.map_map, List.map_map]
  rfl

private theorem findIdx?_congr {α : Type} {p q : α → Bool} {as : List α} (alike : ∀ a ∈ as, p a = q a) :
    as.findIdx? p = as.findIdx? q := by
  induction as with
  | nil => rfl
  | cons a as ih =>
    rw [List.findIdx?_cons, List.findIdx?_cons, alike a List.mem_cons_self,
      ih fun other member => alike other (List.mem_cons_of_mem _ member)]

section

variable (distinct : known.InjOn f) (all : ∀ other ∈ c.names, other ∈ known) (one : name ∈ known)
include all one

include distinct in
theorem same_rename {a : Actor} (member : a ∈ c.actors) : ((a.rename f).name == f name) = (a.name == name) := by
  rw [Bool.eq_iff_iff, beq_iff_eq, beq_iff_eq]
  exact distinct.eq_iff (all a.name (List.mem_map_of_mem member)) one

include distinct in
theorem find_rename : (c.rename f).find? (f name) = (c.find? name).map (Actor.rename f) := by
  rw [find?, rename, List.find?_map, find?, ← List.head?_filter, ← List.head?_filter]
  exact congrArg (Option.map _ ∘ List.head?) (List.filter_congr fun a => same_rename distinct all one)

include distinct in
theorem indexOf_rename : (c.rename f).indexOf? (f name) = c.indexOf? name := by
  rw [indexOf?, rename, List.findIdx?_map, indexOf?]
  exact findIdx?_congr fun a => same_rename distinct all one

include distinct in
theorem lifespanOf_rename : (c.rename f).lifespanOf (f name) = c.lifespanOf name := by
  rw [lifespanOf, find_rename distinct all one, lifespanOf]
  cases c.find? name <;> rfl

include distinct in
theorem enroll_rename : (c.rename f).enroll (f name) = (c.enroll name).rename f := by
  rw [enroll, find_rename distinct all one, Option.isSome_map, enroll]
  split
  · rfl
  · rw [rename, rename, List.map_append]
    rfl

include distinct in
theorem setLifespan_rename (life : Lifespan) :
    (c.rename f).setLifespan (f name) life = (c.setLifespan name life).rename f := by
  rw [setLifespan, rename, setLifespan, rename, List.map_map, List.map_map]
  refine congrArg Cast.mk (List.map_congr_left fun a member => ?_)
  simp only [Function.comp_apply, same_rename distinct all one member]
  split <;> rfl

theorem known_enroll : ∀ other ∈ (c.enroll name).names, other ∈ known := by
  intro other member
  rw [names_enroll] at member
  split at member
  · exact all other member
  · rcases List.mem_append.mp member with held | same
    · exact all other held
    · exact List.mem_singleton.mp same ▸ one

end

/-- Whoever is in a cast after a mention was there before or has been mentioned. -/
theorem known_refer (all : ∀ other ∈ c.names, other ∈ known) (one : m.name ∈ known) (bare : m.name.Bare)
    (line : Nat) : ∀ other ∈ (c.refer m.token line).2.names, other ∈ known := by
  have enrolled := known_enroll all one
  simp only [refer, Mention.ofToken_token bare]
  split
  · rw [names_setLifespan]
    exact enrolled
  · exact enrolled

theorem known_referAll {mentions : List (Mention × Nat)} (all : ∀ other ∈ c.names, other ∈ known)
    (bare : ∀ mention ∈ mentions, mention.1.name ∈ known ∧ mention.1.name.Bare) :
    ∀ other ∈ (c.referAll (mentions.map fun mention => (mention.1.token, mention.2))).2.names, other ∈ known := by
  induction mentions generalizing c with
  | nil => exact all
  | cons mention mentions ih =>
    obtain ⟨⟨one, first⟩, others⟩ := List.forall_mem_cons.mp bare
    exact ih (known_refer all one first mention.2) others

/-- A mention under another name is answered alike and does the same. -/
theorem refer_rename (distinct : known.InjOn f) (all : ∀ other ∈ c.names, other ∈ known) (one : m.name ∈ known)
    (bare : m.name.Bare) (stillBare : (f m.name).Bare) (line : Nat) :
    (c.rename f).refer (m.rename f).token line =
      (renameAnswer f (c.refer m.token line).1, (c.refer m.token line).2.rename f) := by
  -- a name is enrolled before anything is asked of its actor, so it is known from then on
  have enrolled := known_enroll all one
  have reread : Mention.ofToken (m.rename f).token = m.rename f := Mention.ofToken_token stillBare
  have enroll : (c.rename f).enroll (m.rename f).name = (c.enroll m.name).rename f := enroll_rename distinct all one
  have heard : (((c.enroll m.name).rename f).lifespanOf (m.rename f).name).mention (m.rename f).marker line =
      ((c.enroll m.name).lifespanOf m.name).mention m.marker line :=
    congrArg (·.mention m.marker line) (lifespanOf_rename distinct enrolled one)
  simp only [refer, reread, Mention.ofToken_token bare, enroll, heard]
  cases ((c.enroll m.name).lifespanOf m.name).mention m.marker line with
  | ok life => exact congrArg (Prod.mk _) (setLifespan_rename distinct enrolled one life)
  | error fault => rfl

/-- Mentions under other names, one after the other, are answered alike and do the same. -/
theorem referAll_rename {mentions : List (Mention × Nat)} (distinct : known.InjOn f)
    (all : ∀ other ∈ c.names, other ∈ known)
    (bare : ∀ mention ∈ mentions, mention.1.name ∈ known ∧ mention.1.name.Bare ∧ (f mention.1.name).Bare) :
    (c.rename f).referAll (mentions.map fun mention => ((mention.1.rename f).token, mention.2)) =
      ((c.referAll (mentions.map fun mention => (mention.1.token, mention.2))).1.map (renameAnswer f),
        (c.referAll (mentions.map fun mention => (mention.1.token, mention.2))).2.rename f) := by
  induction mentions generalizing c with
  | nil => rfl
  | cons mention mentions ih =>
    obtain ⟨⟨one, first, renamed⟩, others⟩ := List.forall_mem_cons.mp bare
    have next := known_refer all one first mention.2
    simp only [List.map_cons, referAll, refer_rename distinct all one first renamed, ih next others]

end Cast

end SequenceDiagram
