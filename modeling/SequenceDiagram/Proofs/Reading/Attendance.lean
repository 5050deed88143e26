import SequenceDiagram.Proofs.Reading.Diagram

/-! Who is alive when. A line that is read is an event in the lives of both its
actors, and no later line undoes it; once the lives still open are closed at the
end, each of its two actors has an interval that holds the line. -/
namespace SequenceDiagram.Diagram

variable {d next : Diagram} {s : Statement} {line text : Text} {name : Text} {k : Nat} {m : Message}

/-- So far every message is an event in the lives of both its actors. -/
structure Attended (d : Diagram) : Prop where
  record : d.Recorded
  ends : ∀ (k : Nat) (m : Message), d.messages[k]? = some m → ∀ name ∈ [m.source, m.target],
    (d.cast.lifespanOf name).Attends (k + 1) d.lineCount

namespace Attended

theorem empty : ({} : Diagram).Attended := ⟨.empty, fun _ _ message => by cases message⟩

/-- The line of a message that was read is over. -/
theorem line_le (attended : d.Attended) (message : d.messages[k]? = some m) : k + 1 ≤ d.lineCount := by
  obtain ⟨inside, _⟩ := List.getElem?_eq_some_iff.mp message
  exact attended.record.lineCount ▸ inside

theorem addStatement (attended : d.Attended) (done : d.addStatement s = .ok next) : next.Attended := by
  refine ⟨attended.record.addStatement done, ?_⟩
  obtain ⟨source, target, cast₁, cast₂, first, second, rfl⟩ := addStatement_eq_ok done
  obtain ⟨record₁, _⟩ := attended.record.cast.refer (Nat.le_succ _) (Nat.le_add_left _ _) first
  obtain ⟨sourceLives, kept₁⟩ := attended.record.cast.attends_refer (Nat.le_succ _) (Nat.le_add_left _ _) first
  obtain ⟨targetLives, kept₂⟩ := record₁.attends_refer (Nat.le_refl _) (Nat.le_add_left _ _) second
  intro k m message name named
  rcases Nat.lt_or_ge k d.messages.length with earlier | last
  · rw [List.getElem?_append_left earlier] at message
    have past : k + 1 ≤ d.lineCount + 1 := Nat.le_succ_of_le (attended.line_le message)
    exact kept₂ _ _ past (kept₁ _ _ past (attended.ends k m message name named))
  · rw [List.getElem?_append_right last, List.getElem?_singleton] at message
    split at message
    · rename_i same
      cases message
      have new : k + 1 = d.lineCount + 1 := by
        have read := attended.record.lineCount
        omega
      rw [new]
      rcases List.mem_pair.mp named with rfl | rfl
      · exact kept₂ _ _ (Nat.le_refl _) sourceLives
      · exact targetLives
    · cases message

theorem addLine (attended : d.Attended) (done : d.addLine line = .ok next) : next.Attended := by
  obtain ⟨_, _, added⟩ := addLine_eq_ok done
  exact attended.addStatement added

/-- At the end of the text, each message lies in a closed interval of each of its
actors. -/
theorem interval_of_end (attended : d.Attended) (short : d.lineCount ≤ Lifespan.lastLine)
    (message : d.messages[k]? = some m) (named : name ∈ [m.source, m.target]) :
    ∃ a, d.cap.cast.find? name = some a ∧ ∃ i ∈ a.lifespan.intervals, i.1 ≤ k + 1 ∧ k + 1 ≤ i.2 := by
  have past := attended.line_le message
  have representable : k + 1 ≤ Lifespan.lastLine := Nat.le_trans past short
  have held : name ∈ d.cap.cast.names := by
    obtain ⟨_, source, target⟩ := attended.record.cap.messages m (List.mem_of_getElem? message)
    rcases List.mem_pair.mp named with rfl | rfl
    · exact source
    · exact target
  obtain ⟨a, found⟩ := Option.ne_none_iff_exists'.mp (mt Cast.find_eq_none_iff.mp (not_not_intro held))
  have life : a.lifespan = (d.cast.lifespanOf name).cap d.lineCount := by
    rw [← Cast.lifespanOf_cap, Cast.lifespanOf]
    exact (congrArg (fun a => (Option.map Actor.lifespan a).getD {}) found).symm
  refine ⟨a, found, ?_⟩
  rw [life]
  exact (attended.ends k m message name named).interval past (Nat.le_trans (Nat.le_add_left 1 k) past)
    representable

end Attended

/-- Every message of a text happens while both its actors are alive: each of them
has a closed interval that holds the message's line. And every life is made of such
intervals alone, in order and within the lines of the text. -/
theorem messages_happen_within_lives (text : Text) (d : Diagram) (parsed : parse text = .ok d)
    (short : d.lineCount ≤ Lifespan.lastLine) :
    d.messages.length = d.lineCount ∧
      (∀ (k : Nat) (m : Message), d.messages[k]? = some m → ∀ name ∈ [m.source, m.target],
        ∃ a, d.cast.find? name = some a ∧ ∃ i ∈ a.lifespan.intervals, i.1 ≤ k + 1 ∧ k + 1 ≤ i.2) ∧
      ∀ a ∈ d.cast.actors, a.lifespan.intervals ≠ [] ∧
        (∀ i ∈ a.lifespan.intervals, 1 ≤ i.1 ∧ i.1 ≤ i.2 ∧ i.2 ≤ d.lineCount) ∧
        a.lifespan.intervals.Pairwise (fun earlier later => earlier.2 ≤ later.1) ∧
        a.lifespan.marks = a.lifespan.intervals.flatMap fun i => [(i.1 : Int), -(i.2 : Int)] := by
  obtain ⟨read, ran, rfl⟩ := Attempt.map_eq_ok.mp parsed
  have attended : read.Attended :=
    Attempt.fold_preserves (fun _ _ _ => Attended.addLine) Attended.empty ran
  have complete := attended.record.cap
  refine ⟨complete.lineCount, ?_, ?_⟩
  · intro k m message name named
    exact attended.interval_of_end short message named
  · intro a member
    obtain ⟨lines, lived, _, even⟩ := complete.lives a member
    refine ⟨complete.intervals_nonempty member, ?_, lived.intervals_ascend, lived.marks_paired even⟩
    intro i interval
    exact complete.intervals_within member interval

/-- One line ends a life and begins it again, one is a whole life, and one ends a
life that its own line begins. -/
def closeCalls : Text := "A -> B: one\n/A -> A: two\n/A -> C/: three\nC -> /C: four".toList

theorem messages_happen_within_lives_close_calls :
    ∃ d, Diagram.parse closeCalls = .ok d ∧ d.messages.length = d.lineCount ∧ d.lineCount = 4 ∧
      ∃ a, d.cast.find? ['C'] = some a ∧ ∃ i ∈ a.lifespan.intervals, i.1 ≤ 4 ∧ 4 ≤ i.2 := by
  have read : ∃ d, Diagram.parse closeCalls = .ok d ∧ d.lineCount = 4 ∧
      ∃ m, d.messages[3]? = some m ∧ m.source = ['C'] := ⟨_, rfl, rfl, _, rfl, rfl⟩
  obtain ⟨d, parsed, count, m, message, source⟩ := read
  obtain ⟨lines, ends, _⟩ := messages_happen_within_lives closeCalls d parsed (by rw [count]; decide)
  exact ⟨d, parsed, lines, count, ends 3 m message _ (by simp [source])⟩

end SequenceDiagram.Diagram
