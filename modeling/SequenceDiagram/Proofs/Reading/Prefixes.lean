import SequenceDiagram.Proofs.Reading.Diagram
import SequenceDiagram.Proofs.Reading.Lines

/-! The first bad line decides. The lines of a text are read one after the other, each
into the diagram of those before it, and what is read stays in place: messages and
actors are only ever added behind those that are there. So a text cut at the end of a
line is read as the beginning of the whole, and where a line cannot be read, nothing
that follows it counts. -/
namespace SequenceDiagram

variable {e : LifecycleError} {token line text other : Text} {number count : Nat}

/-- A refused mention is reported with its own line. -/
theorem Cast.line_of_refer_eq_error {c next : Cast} (refused : c.refer token number = (.error e, next)) :
    e.line = number := by
  simp only [refer] at refused
  split at refused
  · cases refused
  · cases refused
    rfl

namespace Diagram

variable {d middle next : Diagram} {s : Statement} {error : ParseError} {lines : List Text}

/-- The later diagram has so many lines more: their messages stand behind those of the
earlier one, and so do the actors that they bring. -/
structure Continues (d next : Diagram) (count : Nat) : Prop where
  lineCount : next.lineCount = d.lineCount + count
  messages : ∃ more, next.messages = d.messages ++ more ∧ more.length = count
  names : d.cast.names <+: next.cast.names

namespace Continues

theorem refl (d : Diagram) : d.Continues d 0 := ⟨rfl, ⟨[], by simp⟩, List.prefix_rfl⟩

theorem trans {more : Nat} (first : d.Continues middle count) (second : middle.Continues next more) :
    d.Continues next (count + more) := by
  obtain ⟨early, messages₁, length₁⟩ := first.messages
  obtain ⟨late, messages₂, length₂⟩ := second.messages
  refine ⟨?_, ⟨early ++ late, ?_, ?_⟩, first.names.trans second.names⟩
  · rw [second.lineCount, first.lineCount, Nat.add_assoc]
  · rw [messages₂, messages₁, List.append_assoc]
  · rw [List.length_append, length₁, length₂]

/-- Of the later diagram's messages the first are those of the earlier one. -/
theorem take_messages (continues : d.Continues next count) : next.messages.take d.messages.length = d.messages := by
  obtain ⟨more, messages, _⟩ := continues.messages
  rw [messages, List.take_left]

theorem length_messages (continues : ({} : Diagram).Continues d count) : d.messages.length = count := by
  obtain ⟨more, messages, length⟩ := continues.messages
  rw [messages, List.nil_append, length]

end Continues

theorem names_refer_of_ok {cast after : Cast} {name : Text} (done : cast.refer token number = (.ok name, after)) :
    cast.names <+: after.names := by
  obtain ⟨rfl, life, _, rfl⟩ := Cast.refer_eq_ok done
  rw [Cast.names_setLifespan, Cast.names_enroll]
  split
  · exact List.prefix_rfl
  · exact List.prefix_append _ _

theorem continues_addLine (done : d.addLine line = .ok next) : d.Continues next 1 := by
  obtain ⟨s, _, added⟩ := addLine_eq_ok done
  obtain ⟨source, target, cast₁, cast₂, first, second, rfl⟩ := addStatement_eq_ok added
  exact ⟨rfl, ⟨_, rfl, rfl⟩, (names_refer_of_ok first).trans (names_refer_of_ok second)⟩

theorem continues_fold (done : lines.foldlM addLine d = .ok next) : d.Continues next lines.length := by
  induction lines generalizing d with
  | nil =>
    cases done
    exact .refl _
  | cons line lines ih =>
    rw [List.foldlM_cons] at done
    obtain ⟨middle, first, others⟩ := Attempt.bind_eq_ok.mp done
    rw [List.length_cons, Nat.add_comm]
    exact (continues_addLine first).trans (ih others)

/-- A line that cannot be added is reported as the next one. -/
theorem line_of_addLine_eq_error (failed : d.addLine line = .error error) : error.line = d.lineCount + 1 := by
  rw [addLine] at failed
  split at failed
  · rename_i unread
    rw [readLine] at unread
    split at unread
    · cases unread
      cases failed
      rfl
    · cases unread
  · rename_i s _
    rw [addStatement] at failed
    split at failed
    · rename_i refused
      cases failed
      exact Cast.line_of_refer_eq_error refused
    · split at failed
      · rename_i refused
        cases failed
        exact Cast.line_of_refer_eq_error refused
      · cases failed

theorem body_eq_of_lines (same : other.lines.take count = text.lines.take count) :
    (body other).take count = (body text).take count := by
  rw [body, body, List.take_takeWhile, List.take_takeWhile, same]

theorem body_firstLines (count : Nat) (text : Text) : body (text.firstLines count) = (body text).take count := by
  rw [body, body, Text.lines_firstLines, List.take_takeWhile]

theorem parse_of_fold (done : (body text).foldlM addLine {} = .ok d) : parse text = .ok d.cap := by
  rw [parse, done]
  rfl

theorem parse_eq_error_iff : parse text = .error error ↔ (body text).foldlM addLine {} = .error error := by
  rw [parse]
  cases (body text).foldlM addLine {} <;> simp [Except.map]

/-- A text that is no diagram has a first line that cannot be added, and its error is
that line's. -/
theorem exists_bad_line (failed : parse text = .error error) : ∃ index line front,
    error.line = index + 1 ∧ (body text)[index]? = some line ∧
      ((body text).take index).foldlM addLine {} = .ok front ∧ front.addLine line = .error error := by
  obtain ⟨index, line, front, found, read, bad⟩ := Attempt.fold_eq_error_iff.mp (parse_eq_error_iff.mp failed)
  have inside : index < (body text).length := (List.getElem?_eq_some_iff.mp found).1
  refine ⟨index, line, front, ?_, found, read, bad⟩
  rw [line_of_addLine_eq_error bad, (continues_fold read).lineCount, List.length_take_of_le (Nat.le_of_lt inside)]
  exact Nat.succ_inj.mpr (Nat.zero_add index)

/-- A text that has the same lines up to the bad one has the same error. -/
theorem parse_eq_error_of_same (failed : parse text = .error error)
    (same : (body other).take error.line = (body text).take error.line) : parse other = .error error := by
  obtain ⟨index, line, front, number, found, read, bad⟩ := exists_bad_line failed
  rw [number] at same
  rw [parse_eq_error_iff, Attempt.fold_eq_error_iff]
  refine ⟨index, line, front, ?_, ?_, bad⟩
  · rw [← List.getElem?_take_of_lt (Nat.lt_succ_self index), same, List.getElem?_take_of_lt (Nat.lt_succ_self index)]
    exact found
  · have shorter := congrArg (List.take index) same
    rw [List.take_take, List.take_take, Nat.min_eq_left (Nat.le_succ index)] at shorter
    rw [shorter]
    exact read

/-- The first bad line decides. The error of a text names one of its lines; the text in
front of this line is a diagram, and every text with the same lines up to it has the
same error. A text that is a diagram is one wherever it is cut at the end of a line:
with as many lines, the first of the messages, and the first of the actors in order. -/
theorem first_bad_line_decides (text : Text) :
    (∀ error, parse text = .error error → 1 ≤ error.line ∧ error.line ≤ (body text).length ∧
      (∃ d, parse (text.firstLines (error.line - 1)) = .ok d) ∧
      ∀ other : Text, other.lines.take error.line = text.lines.take error.line → parse other = .error error) ∧
    ∀ d, parse text = .ok d → ∀ count ≤ (body text).length, ∃ front, parse (text.firstLines count) = .ok front ∧
      front.lineCount = count ∧ front.messages.length = count ∧ front.messages = d.messages.take count ∧
      front.cast.names <+: d.cast.names := by
  refine ⟨fun error failed => ?_, fun d parsed count short => ?_⟩
  · obtain ⟨index, line, front, number, found, read, _⟩ := exists_bad_line failed
    have inside : index < (body text).length := (List.getElem?_eq_some_iff.mp found).1
    refine ⟨by omega, by omega, ⟨front.cap, ?_⟩, fun other same => ?_⟩
    · apply parse_of_fold
      rw [body_firstLines, number, Nat.add_sub_cancel]
      exact read
    · exact parse_eq_error_of_same failed (body_eq_of_lines same)
  · obtain ⟨whole, read, rfl⟩ := Attempt.map_eq_ok.mp parsed
    obtain ⟨front, begun, rest⟩ := Attempt.fold_split count read
    have opening := continues_fold begun
    have closing := continues_fold rest
    rw [List.length_take_of_le short] at opening
    have cut : parse (text.firstLines count) = .ok front.cap := parse_of_fold (by rw [body_firstLines, begun])
    have names : front.cap.cast.names <+: whole.cap.cast.names := by
      rw [cap, cap, Cast.names_cap, Cast.names_cap]
      exact closing.names
    refine ⟨front.cap, cut, opening.lineCount.trans (Nat.zero_add count), opening.length_messages, ?_, names⟩
    rw [← opening.length_messages]
    exact closing.take_messages.symm

/-- The target of the third line is refused, after its source has been taken in. -/
theorem first_bad_line_decides_late_refusal :
    (∃ d, parse "A -> B: x\r\nB -> /A: y\n".toList = .ok d) ∧
      parse "A -> B: x\nB -> /A: y\nC -> /A: z\nno statement".toList =
        .error (.lifecycle ⟨.endsUnopened, ['A'], 3⟩) ∧
      ∃ d front, parse "A -> B: x\nC -> A: y\n\nno statement".toList = .ok d ∧
        parse "A -> B: x\n".toList = .ok front ∧ front.messages = d.messages.take 1 ∧
        front.cast.names <+: d.cast.names := by
  have refused : parse "A -> B: x\r\nB -> /A: y\nC -> /A: z".toList =
      .error (.lifecycle ⟨.endsUnopened, ['A'], 3⟩) := by decide +kernel
  obtain ⟨_, _, front, same⟩ := (first_bad_line_decides _).1 _ refused
  obtain ⟨d, parsed⟩ : ∃ d, parse "A -> B: x\nC -> A: y\n\nno statement".toList = .ok d := ⟨_, rfl⟩
  obtain ⟨cut, read, _, _, messages, names⟩ := (first_bad_line_decides _).2 d parsed 1 (by decide +kernel)
  exact ⟨front, same _ (by decide +kernel), d, cut, parsed, read, messages, names⟩

end Diagram

end SequenceDiagram
