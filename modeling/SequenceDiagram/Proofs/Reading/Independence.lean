import Mathlib.Data.List.Induction
import SequenceDiagram.Cast.Story
import SequenceDiagram.Proofs.Reading.Cast

/-! Lives do not interfere. What a mention is answered and what it leaves behind
follow from the earlier mentions of the same name alone: they move a machine of two
phases, and mentions of other names, refused ones too, come and go without a trace.
Nothing is asked of the order of the lines. -/
namespace SequenceDiagram
open Lifespan

namespace Story

variable {s : Story} {phase : Phase} {more : List Int} {marker : Marker} {line : Nat} {name token : Text}
  {mentions : List (Text × Nat)}

/-- The two ways to see whether a life is open, by the number of its marks and by the
sign of the last one, both show the phase. -/
structure Sound (s : Story) : Prop where
  parity : Lifespan.isOpen ⟨s.marks⟩ = (s.phase == .opened)
  sign : (Lifespan.lastMark? ⟨s.marks⟩).all (· < 0) = (s.phase == .closed)

theorem Sound.start : ({} : Story).Sound := ⟨rfl, rfl⟩

theorem isOpen_concat {marks : List Int} {mark : Int} :
    Lifespan.isOpen ⟨marks ++ [mark]⟩ = !Lifespan.isOpen ⟨marks⟩ := by
  rw [Bool.eq_iff_iff]
  simp only [Lifespan.isOpen, List.length_append, List.length_singleton, beq_iff_eq, Bool.not_eq_true',
    beq_eq_false_iff_ne]
  omega

theorem Sound.begins {marks : List Int} (sound : Sound ⟨.closed, marks⟩) (first : 1 ≤ line) :
    Sound ⟨.opened, marks ++ [markAt line]⟩ := by
  have positive := markAt_pos first
  refine ⟨by rw [isOpen_concat, sound.parity]; rfl, ?_⟩
  rw [Lifespan.lastMark?, List.getLast?_concat, Option.all_some]
  exact decide_eq_false (Int.not_lt.mpr (Int.le_of_lt positive))

theorem Sound.ends {marks : List Int} (sound : Sound ⟨.opened, marks⟩) (first : 1 ≤ line) :
    Sound ⟨.closed, marks ++ [-markAt line]⟩ := by
  have positive := markAt_pos first
  refine ⟨by rw [isOpen_concat, sound.parity]; rfl, ?_⟩
  rw [Lifespan.lastMark?, List.getLast?_concat, Option.all_some]
  exact decide_eq_true (Int.neg_neg_of_pos positive)

/-- The last of the marks that an actor adds shows the new phase. -/
theorem Sound.hear (sound : s.Sound) (first : 1 ≤ line) (heard : s.phase.hear marker line = .ok (phase, more)) :
    Sound { phase, marks := s.marks ++ more } := by
  obtain ⟨before, marks⟩ := s
  cases before with
  | closed =>
    cases marker with
    | plain =>
      cases heard
      exact sound.begins first
    | oneShot =>
      cases heard
      have ended := (sound.begins first).ends first
      rwa [List.append_assoc] at ended
    | ending | ambiguous => cases heard
  | opened =>
    cases marker with
    | plain =>
      cases heard
      rwa [List.append_nil]
    | ending =>
      cases heard
      exact sound.ends first
    | oneShot | ambiguous => cases heard

theorem Sound.tell (sound : s.Sound) (first : 1 ≤ line) : (s.tell (marker, line)).Sound := by
  rw [Story.tell]
  split
  · rename_i heard
    exact sound.hear first heard
  · exact sound

/-- A life answers a mention as its phase does. -/
theorem Sound.mention_eq (sound : s.Sound) (marker : Marker) (line : Nat) : Lifespan.mention ⟨s.marks⟩ marker line =
    (s.phase.hear marker line).map fun heard => ⟨s.marks ++ heard.2⟩ := by
  obtain ⟨phase, marks⟩ := s
  obtain ⟨parity, sign⟩ := sound
  cases phase <;> cases marker <;>
    simp_all [Lifespan.mention, Phase.hear, Except.map, Lifespan.openAt, Lifespan.closeAt]

theorem of_concat (name : Text) (mentions : List (Text × Nat)) (token : Text) (line : Nat) :
    of name (mentions ++ [(token, line)]) =
      if Mention.nameOf token = name then (of name mentions).tell (Mention.markerOf token, line)
      else of name mentions := by
  rw [of, List.filterMap_append, List.foldl_append, ← of]
  by_cases named : Mention.nameOf token = name <;> simp [named]

/-- A refused mention leaves no trace in any story. -/
theorem of_refused {fault : LifecycleFault}
    (refused : (of (Mention.nameOf token) mentions).phase.hear (Mention.markerOf token) line = .error fault)
    (name : Text) : of name (mentions ++ [(token, line)]) = of name mentions := by
  rw [of_concat]
  split
  · rename_i named
    subst named
    rw [tell, refused]
  · rfl

/-- An accepted mention goes on with the story of its own name. -/
theorem of_heard
    (heard : (of (Mention.nameOf token) mentions).phase.hear (Mention.markerOf token) line = .ok (phase, more)) :
    of (Mention.nameOf token) (mentions ++ [(token, line)]) =
      { phase, marks := (of (Mention.nameOf token) mentions).marks ++ more } := by
  rw [of_concat, if_pos rfl, tell, heard]

theorem of_other (other : Mention.nameOf token ≠ name) :
    of name (mentions ++ [(token, line)]) = of name mentions := by
  rw [of_concat, if_neg other]

theorem of_unmentioned (unmentioned : name ∉ mentions.map fun mention => Mention.nameOf mention.1) :
    of name mentions = {} := by
  rw [of, List.filterMap_eq_nil_iff.mpr, List.foldl_nil]
  rintro ⟨token, line⟩ member
  exact if_neg fun named => unmentioned (List.mem_map.mpr ⟨_, member, named⟩)

theorem of_sound (name : Text) (numbered : ∀ mention ∈ mentions, 1 ≤ mention.2) : (of name mentions).Sound := by
  induction mentions using List.reverseRecOn with
  | nil => exact .start
  | append_singleton earlier mention ih =>
    obtain ⟨before, last⟩ := List.forall_mem_append.mp numbered
    rw [of_concat]
    split
    · exact (ih before).tell (last mention (List.mem_singleton_self mention))
    · exact ih before

end Story

namespace Cast

variable {earlier mentions : List (Text × Nat)} {token name : Text} {line : Nat}

theorem namesOf_concat : namesOf (earlier ++ [(token, line)]) =
    if Mention.nameOf token ∈ namesOf earlier then namesOf earlier
    else namesOf earlier ++ [Mention.nameOf token] := by
  simp only [namesOf, List.map_append, List.map_cons, List.map_nil, eraseDups_concat, List.mem_eraseDups]

theorem names_told : (told mentions).names = namesOf mentions := by
  rw [names, told, List.map_map]
  exact List.map_id _

theorem lifespanOf_told (name : Text) : (told mentions).lifespanOf name = ⟨(Story.of name mentions).marks⟩ := by
  cases found : (told mentions).find? name with
  | none =>
    have missing := find_eq_none_iff.mp found
    rw [names_told, namesOf, List.mem_eraseDups] at missing
    rw [lifespanOf, found, Story.of_unmentioned missing]
    rfl
  | some a =>
    obtain ⟨member, rfl⟩ := mem_of_find found
    obtain ⟨name, _, rfl⟩ := List.mem_map.mp member
    rw [lifespanOf, found]
    rfl

theorem enroll_told (earlier : List (Text × Nat)) (token : Text) (line : Nat) :
    (told earlier).enroll (Mention.nameOf token) =
      ⟨(namesOf (earlier ++ [(token, line)])).map (actorOf earlier)⟩ := by
  rw [enroll, namesOf_concat, ← names_told]
  by_cases held : Mention.nameOf token ∈ (told earlier).names
  · have found : ((told earlier).find? (Mention.nameOf token)).isSome := by
      rw [Option.isSome_iff_ne_none, ne_eq, find_eq_none_iff]
      exact not_not_intro held
    rw [if_pos found, if_pos held, names_told]
    rfl
  · have missing : ¬((told earlier).find? (Mention.nameOf token)).isSome := by
      rw [find_eq_none_iff.mpr held]
      exact Bool.false_ne_true
    have unmentioned : Story.of (Mention.nameOf token) earlier = {} := by
      rw [names_told, namesOf, List.mem_eraseDups] at held
      exact Story.of_unmentioned held
    rw [if_neg missing, if_neg held, List.map_append, names_told, List.map_singleton, actorOf, unmentioned]
    rfl

/-- One more mention goes on with the story of its own name and no other. -/
theorem refer_told (numbered : ∀ mention ∈ earlier, 1 ≤ mention.2) : (told earlier).refer token line =
    (answerTo earlier token line, told (earlier ++ [(token, line)])) := by
  have sound := Story.of_sound (Mention.nameOf token) numbered
  have mentioned := sound.mention_eq (Mention.markerOf token) line
  have enrolled := enroll_told earlier token line
  have living : ((told earlier).enroll (Mention.nameOf token)).lifespanOf (Mention.nameOf token) =
      ⟨(Story.of (Mention.nameOf token) earlier).marks⟩ := (lifespanOf_enroll _).trans (lifespanOf_told _)
  rw [← living] at mentioned
  rw [enrolled] at mentioned
  simp only [refer, Mention.ofToken, enrolled, mentioned, answerTo]
  cases heard : (Story.of (Mention.nameOf token) earlier).phase.hear (Mention.markerOf token) line with
  | error fault =>
    have untouched : actorOf (earlier ++ [(token, line)]) = actorOf earlier := by
      funext name
      rw [actorOf, actorOf, Story.of_refused heard]
    rw [told, untouched]
    rfl
  | ok after =>
    have continued : (fun a : Actor => if a.name == Mention.nameOf token then
        { a with lifespan := ⟨(Story.of (Mention.nameOf token) earlier).marks ++ after.2⟩ } else a) ∘ actorOf earlier =
        actorOf (earlier ++ [(token, line)]) := by
      funext name
      by_cases own : name = Mention.nameOf token
      · subst own
        simp [actorOf, Story.of_heard heard]
      · simp [actorOf, own, Story.of_other (Ne.symm own)]
    rw [told, ← continued, ← List.map_map]
    rfl

/-- A run of mentions after others answers each of them, and leaves the cast of the
whole. -/
theorem referAll_told (earlier mentions : List (Text × Nat))
    (numbered : ∀ mention ∈ earlier ++ mentions, 1 ≤ mention.2) :
    ∃ answers, (told earlier).referAll mentions = (answers, told (earlier ++ mentions)) ∧
      answers.length = mentions.length ∧
      ∀ (turn : Nat) (token : Text) (line : Nat), mentions[turn]? = some (token, line) →
        answers[turn]? = some (answerTo (earlier ++ mentions.take turn) token line) := by
  induction mentions generalizing earlier with
  | nil => exact ⟨[], by rw [List.append_nil]; rfl, rfl, fun _ _ _ none => nomatch none⟩
  | cons mention mentions ih =>
    obtain ⟨token, line⟩ := mention
    rw [List.append_cons] at numbered ⊢
    obtain ⟨answers, ran, long, each⟩ := ih _ numbered
    have before : ∀ mention ∈ earlier, 1 ≤ mention.2 := fun mention member => numbered mention (by simp [member])
    refine ⟨answerTo earlier token line :: answers, ?_, by simp [long], ?_⟩
    · simp only [referAll, refer_told before, ran]
    · intro turn other otherLine mentioned
      cases turn with
      | zero =>
        cases mentioned
        simp
      | succ turn =>
        have answered := each turn other otherLine mentioned
        rw [List.append_assoc] at answered
        exact answered

theorem lifespanOf_referAll (numbered : ∀ mention ∈ mentions, 1 ≤ mention.2) (name : Text) :
    (({} : Cast).referAll mentions).2.lifespanOf name = ⟨(Story.of name mentions).marks⟩ := by
  obtain ⟨_, ran, _⟩ := referAll_told [] mentions numbered
  rw [← lifespanOf_told]
  exact congrArg (fun run => Cast.lifespanOf run.2 name) ran

end Cast

theorem answerTo_eq_error {earlier : List (Text × Nat)} {token : Text} {line : Nat} {error : LifecycleError}
    (refused : answerTo earlier token line = .error error) :
    ∃ fault, (Story.of (Mention.nameOf token) earlier).phase.hear (Mention.markerOf token) line = .error fault := by
  rw [answerTo] at refused
  split at refused
  · cases refused
  · exact ⟨_, ‹_›⟩

/-- Lives do not interfere. In every run of mentions on an empty cast, each is
answered as the machine of its own name answers after the earlier mentions of that
name, and the cast is that of these machines, actor by actor in the order of the first
mentions. A refused mention changes no life. -/
theorem lives_do_not_interfere (mentions : List (Text × Nat)) (numbered : ∀ mention ∈ mentions, 1 ≤ mention.2) :
    ∃ answers cast, ({} : Cast).referAll mentions = (answers, cast) ∧
      cast.actors = (mentions.map fun mention => Mention.nameOf mention.1).eraseDups.map (fun name =>
        { name, lifespan := ⟨(Story.of name mentions).marks⟩ }) ∧
      answers.length = mentions.length ∧
      (∀ (turn : Nat) (token : Text) (line : Nat), mentions[turn]? = some (token, line) →
        answers[turn]? = some (match (Story.of (Mention.nameOf token) (mentions.take turn)).phase.hear
            (Mention.markerOf token) line with
          | .ok _ => .ok (Mention.nameOf token)
          | .error fault => .error { fault, name := Mention.nameOf token, line })) ∧
      ∀ turn error, answers[turn]? = some (.error error) → ∀ name,
        (({} : Cast).referAll (mentions.take (turn + 1))).2.lifespanOf name =
          (({} : Cast).referAll (mentions.take turn)).2.lifespanOf name := by
  obtain ⟨answers, ran, long, each⟩ := Cast.referAll_told [] mentions numbered
  refine ⟨answers, Cast.told mentions, ran, rfl, long, each, ?_⟩
  intro turn error refused name
  have inside : turn < mentions.length := long ▸ (List.getElem?_eq_some_iff.mp refused).1
  have mentioned : mentions[turn]? = some mentions[turn] := List.getElem?_eq_getElem inside
  rw [each turn _ _ mentioned, Option.some.injEq] at refused
  obtain ⟨fault, silent⟩ := answerTo_eq_error refused
  have shorter (count : Nat) : ∀ mention ∈ mentions.take count, 1 ≤ mention.2 :=
    fun mention member => numbered mention (List.mem_of_mem_take member)
  rw [Cast.lifespanOf_referAll (shorter _), Cast.lifespanOf_referAll (shorter _),
    List.take_succ_eq_append_getElem inside]
  exact congrArg (fun story => (⟨story.marks⟩ : Lifespan)) (Story.of_refused silent name)

/-- Refused mentions of three kinds among accepted ones, on lines in no order, of
names that are spelled in more than one way. -/
def unruly : List (Text × Nat) :=
  [("/B".toList, 4), (" A".toList, 9), ("B/".toList, 2), ("A/".toList, 3), ("/A".toList, 0x8000000000000000),
    ("/B/".toList, 1), ("A/".toList, 5)]

theorem lives_do_not_interfere_unruly : ∃ answers cast, ({} : Cast).referAll unruly = (answers, cast) ∧
    cast.names = [['B'], ['A']] ∧ (cast.lifespanOf ['A']).marks = [9, -0x7FFFFFFFFFFFFFFF, 5, -5] ∧
    answers[3]? = some (.error ⟨.oneShotWhileOpen, ['A'], 3⟩) := by
  obtain ⟨answers, cast, ran, actors, _, each, _⟩ := lives_do_not_interfere unruly (by decide)
  refine ⟨answers, cast, ran, ?_, ?_, (each 3 _ _ rfl).trans (by decide)⟩
  · rw [Cast.names, actors]
    decide
  · rw [Cast.lifespanOf, Cast.find?, actors]
    decide

end SequenceDiagram
