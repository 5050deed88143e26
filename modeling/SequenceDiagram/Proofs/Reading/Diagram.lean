import SequenceDiagram.Diagram
import SequenceDiagram.Proofs.Attempt
import SequenceDiagram.Proofs.Reading.Cast
import SequenceDiagram.Proofs.Reading.Statement

/-! What a text that is read leaves behind. Line by line the diagram stays a
record of its own lines: every message is open and names two actors of the cast,
and every actor has been mentioned. At the end no life is left open. -/
namespace SequenceDiagram.Diagram

variable {d next : Diagram} {s : Statement} {line text token : Text}

/-- The diagram of the lines read so far. -/
structure Recorded (d : Diagram) : Prop where
  cast : d.cast.Recorded d.lineCount
  lineCount : d.messages.length = d.lineCount
  messages : ∀ m ∈ d.messages,
    m.rightward = none ∧ m.source ∈ d.cast.names ∧ m.target ∈ d.cast.names

/-- The diagram of a whole text: every life is a row of closed intervals, one at
least, within the lines of the text. -/
structure Complete (d : Diagram) : Prop where
  distinct : d.cast.names.Nodup
  lives : ∀ a ∈ d.cast.actors, ∃ lines,
    a.lifespan.Records lines d.lineCount ∧ lines ≠ [] ∧ lines.length % 2 = 0
  lineCount : d.messages.length = d.lineCount
  messages : ∀ m ∈ d.messages,
    m.rightward = none ∧ m.source ∈ d.cast.names ∧ m.target ∈ d.cast.names

/-- A statement is the next line: its two mentions, source first, then its
message at the end. -/
theorem addStatement_eq_ok (done : d.addStatement s = .ok next) :
    ∃ source target cast₁ cast₂, d.cast.refer s.source (d.lineCount + 1) = (.ok source, cast₁) ∧
      cast₁.refer s.target (d.lineCount + 1) = (.ok target, cast₂) ∧
      next = { cast := cast₂, lineCount := d.lineCount + 1,
               messages := d.messages ++ [{ arrow := s.arrow, source, target, label := s.label }] } := by
  rw [addStatement] at done
  split at done
  · cases done
  · rename_i source cast₁ first
    split at done
    · cases done
    · rename_i target cast₂ second
      cases done
      exact ⟨source, target, cast₁, cast₂, first, second, rfl⟩

theorem addLine_eq_ok (done : d.addLine line = .ok next) :
    ∃ s, readLine (d.lineCount + 1) line = .ok s ∧ d.addStatement s = .ok next := by
  rw [addLine] at done
  split at done
  · cases done
  · rename_i s written
    exact ⟨s, written, Attempt.mapError_eq_ok.mp done⟩

namespace Recorded

theorem empty : ({} : Diagram).Recorded := ⟨.empty, rfl, fun _ member => nomatch member⟩

theorem addStatement (record : d.Recorded) (done : d.addStatement s = .ok next) : next.Recorded := by
  obtain ⟨source, target, cast₁, cast₂, first, second, rfl⟩ := addStatement_eq_ok done
  obtain ⟨record₁, names₁⟩ := record.cast.refer (Nat.le_succ _) (Nat.le_add_left _ _) first
  obtain ⟨record₂, names₂⟩ := record₁.refer (Nat.le_refl _) (Nat.le_add_left _ _) second
  have kept₁ : ∀ name ∈ d.cast.names, name ∈ cast₁.names := by grind
  have kept₂ : ∀ name ∈ cast₁.names, name ∈ cast₂.names := by grind
  have sourceHeld : source ∈ cast₁.names := by grind
  have targetHeld : target ∈ cast₂.names := by grind
  refine ⟨record₂, by simp [record.lineCount], ?_⟩
  intro m member
  rcases List.mem_append.mp member with earlier | same
  · obtain ⟨unknown, source, target⟩ := record.messages m earlier
    exact ⟨unknown, kept₂ _ (kept₁ _ source), kept₂ _ (kept₁ _ target)⟩
  · rw [List.mem_singleton.mp same]
    exact ⟨rfl, kept₂ _ sourceHeld, targetHeld⟩

theorem addLine (record : d.Recorded) (done : d.addLine line = .ok next) : next.Recorded := by
  obtain ⟨_, _, added⟩ := addLine_eq_ok done
  exact record.addStatement added

/-- Closing the open lives completes the diagram. -/
theorem cap (record : d.Recorded) : d.cap.Complete := by
  have names : d.cap.cast.names = d.cast.names := Cast.names_cap d.lineCount
  refine ⟨names ▸ record.cast.distinct, ?_, record.lineCount, by rw [names]; exact record.messages⟩
  intro a member
  obtain ⟨earlier, held, rfl⟩ := List.mem_map.mp member
  obtain ⟨lines, lived, recorded⟩ := record.cast.lives earlier held
  obtain ⟨line, listed⟩ := List.exists_mem_of_ne_nil lines recorded
  have bound := lived.bounds line listed
  obtain ⟨more, closed, even, _⟩ := lived.cap (Nat.le_refl _) (Nat.le_trans bound.1 bound.2)
  exact ⟨lines ++ more, closed, by simp [recorded], even⟩

end Recorded

/-- Every text that is read at all gives a complete diagram. -/
theorem parse_complete (parsed : parse text = .ok d) : d.Complete := by
  obtain ⟨read, ran, rfl⟩ := Attempt.map_eq_ok.mp parsed
  exact (Attempt.fold_preserves (fun _ _ _ => Recorded.addLine) Recorded.empty ran).cap

namespace Complete

variable (complete : d.Complete)
include complete

theorem intervals_within {a : Actor} {start stop : Nat} (member : a ∈ d.cast.actors)
    (interval : (start, stop) ∈ a.lifespan.intervals) :
    1 ≤ start ∧ start ≤ stop ∧ stop ≤ d.lineCount := by
  obtain ⟨_, lived, _⟩ := complete.lives a member
  exact lived.mem_intervals interval

theorem intervals_nonempty {a : Actor} (member : a ∈ d.cast.actors) : a.lifespan.intervals ≠ [] := by
  obtain ⟨_, lived, recorded, even⟩ := complete.lives a member
  exact lived.intervals_nonempty recorded even

end Complete

/-- No name and no label has a newline in it. -/
structure OneLine (d : Diagram) : Prop where
  names : ∀ name ∈ d.cast.names, '\n' ∉ name
  labels : ∀ m ∈ d.messages, '\n' ∉ m.label

theorem mem_of_mem_nameOf {c : Char} (member : c ∈ Mention.nameOf token) : c ∈ token ∧ c ≠ '/' := by
  simp only [Mention.nameOf, Text.trim, Text.dropEndWhile, List.mem_reverse] at member
  have trimmed := (List.dropWhile_sublist _).subset member
  rw [List.mem_reverse] at trimmed
  simpa using List.mem_filter.mp ((List.dropWhile_sublist _).subset trimmed)

theorem oneLine_name (written : ActorToken token) : '\n' ∉ (Mention.ofToken token).name :=
  fun newline => Statement.oneLine_actorToken written (mem_of_mem_nameOf newline).1

private theorem mem_dropWhile {p : Char → Bool} {t : Text} {c : Char} (member : c ∈ t) (kept : p c = false) :
    c ∈ t.dropWhile p := by
  rw [← List.takeWhile_append_dropWhile (p := p) (l := t), List.mem_append] at member
  refine member.resolve_left fun taken => ?_
  rw [List.mem_takeWhile_imp taken] at kept
  cases kept

private theorem not_blank_of_word {c : Char} (word : isWordChar c = true) : Text.isBlank c = false := by
  have none_blank : Text.blanks.all (fun blank => !isWordChar blank) = true := by decide +kernel
  by_contra blank
  have unlike := List.all_eq_true.mp none_blank c (List.contains_iff_mem.mp (eq_true_of_ne_false blank))
  rw [word] at unlike
  cases unlike

/-- A name is made of one character at least, and of those only that may stand in a
name. -/
theorem name_of_actorToken (written : ActorToken token) : (Mention.ofToken token).name ≠ [] ∧
    ∀ ch ∈ (Mention.ofToken token).name, isNameChar ch = true := by
  refine ⟨?_, fun ch member => ?_⟩
  · obtain ⟨before, starts, continues, after⟩ := written
    rename_i opening closing name first
    have visible : Text.isBlank first = false := not_blank_of_word starts
    have written : first ∈ (opening ++ first :: name ++ closing).filter (· != '/') := by
      simp [Statement.ne_slash_of_word starts]
    have left := mem_dropWhile (List.mem_reverse.mpr (mem_dropWhile written visible)) visible
    exact List.ne_nil_of_mem (List.mem_reverse.mpr left)
  · obtain ⟨inToken, notSlash⟩ := mem_of_mem_nameOf member
    exact (Statement.mem_actorToken written inToken).resolve_right notSlash

theorem proper_of_readLine {number : Nat} (written : readLine number line = .ok s) : s.Proper := by
  rw [readLine] at written
  split at written
  · cases written
  · rename_i read
    cases written
    obtain ⟨_, _, spelled⟩ := Statement.read?_eq_some read
    exact spelled.proper

section Names

/-! What holds of every name that is mentioned holds of all names of a diagram. -/

variable {P : Text → Prop} (mentioned : ∀ token, ActorToken token → P (Mention.ofToken token).name)
include mentioned

theorem names_refer {cast after : Cast} {name : Text} {number : Nat} (kept : ∀ name ∈ cast.names, P name)
    (written : ActorToken token) (done : cast.refer token number = (.ok name, after)) :
    ∀ name ∈ after.names, P name := by
  obtain ⟨rfl, life, _, rfl⟩ := Cast.refer_eq_ok done
  rw [Cast.names_setLifespan, Cast.names_enroll]
  split
  · exact kept
  · exact List.forall_mem_append.mpr ⟨kept, List.forall_mem_singleton.mpr (mentioned token written)⟩

theorem names_addLine (kept : ∀ name ∈ d.cast.names, P name) (done : d.addLine line = .ok next) :
    ∀ name ∈ next.cast.names, P name := by
  obtain ⟨s, written, added⟩ := addLine_eq_ok done
  obtain ⟨source, target, cast₁, cast₂, first, second, rfl⟩ := addStatement_eq_ok added
  have proper := proper_of_readLine written
  exact names_refer mentioned (names_refer mentioned kept proper.source first) proper.target second

theorem names_parse (parsed : parse text = .ok d) : ∀ name ∈ d.cast.names, P name := by
  obtain ⟨read, ran, rfl⟩ := Attempt.map_eq_ok.mp parsed
  have kept : ∀ name ∈ read.cast.names, P name :=
    Attempt.fold_preserves (fun _ _ _ => names_addLine mentioned) (List.forall_mem_nil _) ran
  exact (Cast.names_cap read.lineCount).symm ▸ kept

end Names

namespace OneLine

theorem empty : ({} : Diagram).OneLine := ⟨List.forall_mem_nil _, List.forall_mem_nil _⟩

theorem addLine (kept : d.OneLine) (done : d.addLine line = .ok next) : next.OneLine := by
  refine ⟨names_addLine (fun _ => oneLine_name) kept.names done, ?_⟩
  obtain ⟨s, written, added⟩ := addLine_eq_ok done
  obtain ⟨source, target, cast₁, cast₂, _, _, rfl⟩ := addStatement_eq_ok added
  have label := (proper_of_readLine written).label
  exact List.forall_mem_append.mpr ⟨kept.labels, List.forall_mem_singleton.mpr label.oneLine⟩

end OneLine

theorem parse_oneLine (parsed : parse text = .ok d) : d.OneLine := by
  obtain ⟨read, ran, rfl⟩ := Attempt.map_eq_ok.mp parsed
  have kept : read.OneLine := Attempt.fold_preserves (fun _ _ _ => OneLine.addLine) OneLine.empty ran
  exact ⟨(Cast.names_cap read.lineCount).symm ▸ kept.names, kept.labels⟩

end SequenceDiagram.Diagram
