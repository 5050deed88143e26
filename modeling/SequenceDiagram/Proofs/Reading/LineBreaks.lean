import SequenceDiagram.Diagram
import SequenceDiagram.Proofs.Reading.Lines

/-! What a text may change without changing its diagram. A line break may be a newline
or a carriage return and a newline. A newline behind the text ends its last line, which
it may do or not, or adds an empty line, which ends the diagram where the text ended it;
and behind an empty line anything may follow. -/
namespace SequenceDiagram

namespace Text

variable {c : Char} {t rest : Text} {ls : List Text}

/-- The text with a carriage return in front of every newline. -/
def withReturns (t : Text) : Text := t.flatMap fun c => if c = '\n' then ['\r', '\n'] else [c]

theorem withReturns_newline (t : Text) : withReturns ('\n' :: t) = '\r' :: '\n' :: withReturns t := rfl

theorem withReturns_cons (inside : c ≠ '\n') (t : Text) : withReturns (c :: t) = c :: withReturns t := by
  rw [withReturns, List.flatMap_cons, if_neg inside]
  rfl

theorem lines_withReturns (plain : '\r' ∉ t) : lines t.withReturns = lines t := by
  induction t with
  | nil => rfl
  | cons c t ih =>
    obtain ⟨kept, others⟩ := List.ne_and_not_mem_of_not_mem_cons plain
    by_cases newline : c = '\n'
    · subst newline
      rw [withReturns_newline, lines, lines, ih others]
    · have apart (next : Text) : c = '\r' → next.head? ≠ some '\n' := fun returned => absurd returned.symm kept
      rw [withReturns_cons newline, lines_cons newline (apart _), lines_cons newline (apart _), ih others]

theorem lines_ne_nil (full : t ≠ []) : lines t ≠ [] := by
  fun_cases lines t with
  | case1 => exact absurd rfl full
  | case2 | case3 => exact List.cons_ne_nil _ _
  | case4 c t => cases lines t <;> exact List.cons_ne_nil _ _

theorem consFirst_append (c : Char) (full : ls ≠ []) (more : List Text) :
    consFirst c (ls ++ more) = consFirst c ls ++ more := by
  cases ls with
  | nil => exact absurd rfl full
  | cons l ls => rfl

/-- Behind a newline, the lines of the rest stand behind those of the text, and where
the text had no line to end there, an empty one stands between them. -/
theorem lines_append_cases (ending : t.getLast? ≠ some '\r') (rest : Text) :
    lines (t ++ '\n' :: rest) = lines t ++ lines rest ∨ lines (t ++ '\n' :: rest) = lines t ++ [] :: lines rest := by
  fun_induction lines t with
  | case1 => exact .inr rfl
  | case2 t ih =>
    have ending : t.getLast? ≠ some '\r' := fun last => ending (by simp [List.getLast?_cons, last])
    exact (ih ending).imp (congrArg ([] :: ·)) (congrArg ([] :: ·))
  | case3 t ih =>
    have ending : t.getLast? ≠ some '\r' := fun last => ending (by simp [List.getLast?_cons, last])
    exact (ih ending).imp (congrArg ([] :: ·)) (congrArg ([] :: ·))
  | case4 c t inside kept ih =>
    cases t with
    | nil =>
      have plain : c ≠ '\r' := fun returned => ending (by rw [returned]; rfl)
      left
      rw [List.singleton_append, lines_cons inside fun returned => absurd returned plain]
      rfl
    | cons d t =>
      rw [List.getLast?_cons_cons] at ending
      have next : c = '\r' → (d :: t ++ '\n' :: rest).head? ≠ some '\n' := by
        intro returned newline
        cases newline
        exact kept t returned rfl
      have full : lines (d :: t) ≠ [] := lines_ne_nil (List.cons_ne_nil d t)
      rw [List.cons_append, lines_cons inside next, ← consFirst_append c full, ← consFirst_append c full]
      exact (ih ending).imp (congrArg (consFirst c)) (congrArg (consFirst c))

end Text

namespace Diagram

variable {t rest : Text}

theorem parse_of_body {u : Text} (same : body u = body t) : parse u = parse t := by
  rw [parse, parse, same]

private theorem takeWhile_append_of_stops {α : Type} {p : α → Bool} {as more : List α} (stops : more.takeWhile p = []) :
    (as ++ more).takeWhile p = as.takeWhile p := by
  rw [List.takeWhile_append, stops, List.append_nil]
  split
  · rename_i whole
    exact ((List.takeWhile_prefix p).eq_of_length whole).symm
  · rfl

/-- A newline behind a text adds no line to its diagram if the rest has none. -/
theorem body_append_newline (ending : t.getLast? ≠ some '\r') (nothing : body rest = []) :
    body (t ++ '\n' :: rest) = body t := by
  rcases Text.lines_append_cases ending rest with lines | lines
  · rw [body, lines, takeWhile_append_of_stops nothing, body]
  · rw [body, lines, takeWhile_append_of_stops rfl, body]

/-- Line breaks may be of either kind, a last line may be ended or not, and what stands
behind an empty line does not count: the diagram, or the error, is the same. -/
theorem breaks_and_tails_do_not_matter (t : Text) :
    ('\r' ∉ t → parse t.withReturns = parse t) ∧
      (t.getLast? ≠ some '\r' → parse (t ++ ['\n']) = parse t ∧
        ∀ tail : Text, parse (t ++ ['\n', '\n'] ++ tail) = parse t) := by
  refine ⟨fun plain => ?_, fun ending => ⟨?_, fun tail => ?_⟩⟩
  · exact parse_of_body (by rw [body, Text.lines_withReturns plain, body])
  · exact parse_of_body (body_append_newline ending rfl)
  · rw [List.append_assoc]
    exact parse_of_body (body_append_newline ending rfl)

/-- A life still open, an empty line inside, newlines at the end and a line that is no
statement. -/
theorem breaks_and_tails_do_not_matter_open_life :
    parse "A -> B: x\r\n\r\n/B <- A: y\r\n".toList = parse "A -> B: x\n\n/B <- A: y\n".toList ∧
      parse "A -> B: x\n/A -> B: y\n\n\nno statement".toList = parse "A -> B: x\n/A -> B: y\n".toList ∧
      parse "A -> B: x\nno statement\n".toList = parse "A -> B: x\nno statement".toList :=
  ⟨(breaks_and_tails_do_not_matter "A -> B: x\n\n/B <- A: y\n".toList).1 (by decide),
    ((breaks_and_tails_do_not_matter "A -> B: x\n/A -> B: y\n".toList).2 (by decide)).2 "no statement".toList,
    ((breaks_and_tails_do_not_matter "A -> B: x\nno statement".toList).2 (by decide)).1⟩

end Diagram

end SequenceDiagram
