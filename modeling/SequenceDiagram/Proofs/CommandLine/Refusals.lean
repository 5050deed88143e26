import SequenceDiagram.CommandLine.Run
import SequenceDiagram.Proofs.Picture.Counted
import SequenceDiagram.Proofs.Picture.RightEdge

/-! What a run can refuse. Once the arguments are accepted and the input is read,
only the reading of the diagram can fail: all that comes after it succeeds, in the
style of the command line and on a canvas that can be made. So the exit code tells
whether the text is a diagram, and the form of the output has no say in it. -/
namespace SequenceDiagram
open Layout

variable {page : Page} {style : Style} {text : Text} {d arranged : Diagram} {outcome : Outcome}
  {placed : List PlacedMessage} {picture : Text} {pageWidth : Nat}

/-- A diagram goes all the way to its picture, and no difference taken on the way
is one of numbers in the wrong order. -/
structure Drawing.Completes (style : Style) (page : Page) (d arranged : Diagram) (outcome : Outcome)
    (placed : List PlacedMessage) (picture : Text) : Prop where
  arranges : Layout.arrange style.measure page d = .ok (arranged, outcome)
  places : Picture.placeAll arranged outcome.headerOffset style = .ok placed
  measures : Picture.stop? .endless style arranged.cast placed = some (Picture.stop arranged.cast style placed)
  shapes : Picture.shapes? .endless style outcome.headerOffset arranged placed =
    some (Picture.shapes arranged outcome.headerOffset style placed)
  paints : Picture.paint style outcome.headerOffset arranged = .ok picture

/-- Where the boxes fit, nothing but the reading of a text can fail. -/
theorem drawing_completes (parsed : Diagram.parse text = .ok d) (boxes : d.BoxesFit style)
    (roomy : Drawing.area style.measure (.terminal pageWidth) style text ≤ Canvas.maxArea) :
    ∃ arranged outcome placed picture,
      Drawing.Completes style (.terminal pageWidth) d arranged outcome placed picture := by
  obtain ⟨complete, ends, arranged, outcome, placed, done, result, all⟩ :=
    stages_of_parse style.measure (.terminal pageWidth) style parsed
  have room := Drawing.canvas_le_of_area_le parsed done all roomy
  have holds := (result.holds_all_iff_boxes_fit complete all).mpr boxes
  obtain ⟨picture, painted⟩ := Picture.paint_succeeds all room holds
  refine ⟨arranged, outcome, placed, picture, done, all, Picture.stop?_endless, ?_, painted⟩
  refine Picture.shapes?_endless ?_ ?_
  · intro p member
    obtain ⟨_, settled⟩ := result.settled complete all member
    obtain ⟨line, first, _, row⟩ := settled.row
    have below : Picture.rowOf outcome.headerOffset style 0 < Picture.rowOf outcome.headerOffset style line :=
      Picture.rowOf_lt first
    omega
  · intro p member other
    obtain ⟨_, settled⟩ := result.settled complete all member
    have room := settled.bar_room result.side_by_side other
    omega

namespace CommandLine

variable {o : Options} {args : List Text} {error : ParseError}

/-- A text that is no diagram ends the run with its error, whatever was asked for. -/
theorem finish_of_unread (unread : Diagram.parse text = .error error) :
    finish o text = .failure error.message := by
  cases form : o.json with
  | true =>
    simp only [finish, output, form, if_true, Diagram.ofText, unread, Except.map]
    rfl
  | false =>
    simp only [finish, output, form, Bool.false_eq_true, if_false, Drawing.ofText, Diagram.ofText, unread,
      Except.map]
    rfl

/-- A text that is a diagram ends the run well, whatever was asked for. -/
theorem finish_code_of_read (parsed : Diagram.parse text = .ok d)
    (roomy : Drawing.area (Style.measure {}) (.terminal (o.width.getD defaultWidth)) {} text ≤ Canvas.maxArea) :
    (finish o text).code = 0 := by
  obtain ⟨arranged, outcome, placed, picture, completes⟩ :=
    drawing_completes parsed (Diagram.boxes_fit_of_short (by decide)) roomy
  cases form : o.json with
  | true =>
    simp only [finish, output, form, if_true, Diagram.ofText, parsed, completes.arranges, Except.mapError,
      Except.map]
  | false =>
    simp only [finish, output, form, Bool.false_eq_true, if_false, Except.map, Except.mapError,
      Drawing.ofText_eq parsed completes.arranges, completes.paints]

/-- Asking for the layout as data in front of accepted arguments changes nothing
else that was asked for. -/
theorem Options.parse_json_cons (accepted : Options.parse? args = some o) (drawing : o.editor = false)
    (plain : o.json = false) : Options.parse? ("--json".toList :: args) = some { o with json := true } := by
  obtain ⟨units, cut, added⟩ := Option.bind_eq_some_iff.mp accepted
  have cutMore : Argument.cut? ("--json".toList :: args) = some (.json :: units) := by
    unfold Argument.cut?
    rw [if_neg (by decide), cut]
    rfl
  rw [Options.parse?, cutMore, Option.bind_some]
  simp only [Options.ofArguments?] at added ⊢
  split at added
  · rename_i sound
    cases added
    obtain ⟨files, widths, _, editors, _⟩ := sound
    have absent : units.contains Argument.json = false := plain
    have noEditor : units.contains Argument.editor = false := drawing
    have uncounted : units.count Argument.json = 0 := List.count_eq_zero.mpr (by simpa using absent)
    have once : (Argument.json :: units).count Argument.json = 1 := by rw [List.count_cons_self, uncounted]
    have editorsMore : (Argument.json :: units).count Argument.editor = units.count Argument.editor :=
      List.count_cons_of_ne (by decide)
    have noEditorMore : (Argument.json :: units).contains Argument.editor = false := noEditor
    rw [if_pos]
    · rfl
    · refine ⟨files, widths, Nat.le_of_eq once, editorsMore ▸ editors, ?_⟩
      rw [noEditorMore]
      exact fun both => Bool.false_ne_true both.1
  · cases added

variable {m : Type → Type} [Monad m] [LawfulMonad m] {terminal : Bool}
  {read : Source → m (Except ReadError Text)} {effect : m Unit}

/-- A run without the editor reads its input and ends with what the text gives. -/
theorem run_eq_finish (accepted : Options.parse? args = some o) (drawing : o.editor = false)
    (fed : ¬(o.file = none ∧ terminal = true))
    (readable : read o.source = do
      effect
      return .ok text) :
    run terminal read args = do
      effect
      return finish o text := by
  have fed : (o.file.isNone && terminal) = false := by simpa using fed
  simp only [run, accepted, drawing, fed, Bool.false_eq_true, if_false, readable, bind_assoc, pure_bind]

/-- The end of a failed run as it is seen from outside. -/
theorem failure_eq (message : String) :
    Exit.failure message = { code := 1, stdout := "", stderr := "rapidseq: " ++ message ++ "\n" } := by
  have named : program ++ ": " = "rapidseq: " := by decide
  rw [Exit.failure, report, named]

/-- A run with accepted arguments and a text to read fails exactly where the text
is no diagram, with the error of its reading and nothing printed. A diagram goes
through all later steps. Asking for the layout as data changes neither the exit
code nor the end of a failed run. -/
theorem only_reading_refuses (terminal : Bool) (read : Source → m (Except ReadError Text)) (effect : m Unit)
    (args : List Text) (o : Options) (text : Text) (accepted : Options.parse? args = some o)
    (drawing : o.editor = false) (fed : ¬(o.file = none ∧ terminal = true))
    (readable : read o.source = do
      effect
      return .ok text)
    (roomy : Drawing.area (Style.measure {}) (.terminal (o.width.getD defaultWidth)) {} text ≤ Canvas.maxArea) :
    ∃ exit : Exit, (run terminal read args = do
        effect
        return exit) ∧
      (exit.code = 0 ↔ ∃ d, Diagram.parse text = .ok d) ∧
      (∀ error, Diagram.parse text = .error error →
        exit = { code := 1, stdout := "", stderr := "rapidseq: " ++ error.message ++ "\n" }) ∧
      (∀ d, Diagram.parse text = .ok d → ∃ arranged outcome placed picture,
        Drawing.Completes {} (.terminal (o.width.getD defaultWidth)) d arranged outcome placed picture) ∧
      (o.json = false → Options.parse? ("--json".toList :: args) = some { o with json := true }) ∧
      ∀ others, Options.parse? others = some { o with json := !o.json } →
        ∃ other : Exit, (run terminal read others = do
            effect
            return other) ∧
          other.code = exit.code ∧ (exit.code ≠ 0 → other = exit) := by
  refine ⟨finish o text, run_eq_finish accepted drawing fed readable, ?_, ?_, ?_, ?_, ?_⟩
  · cases parsed : Diagram.parse text with
    | error error =>
      rw [finish_of_unread parsed]
      simp [Exit.failure]
    | ok d => exact ⟨fun _ => ⟨d, rfl⟩, fun _ => finish_code_of_read parsed roomy⟩
  · intro error unread
    rw [finish_of_unread unread, failure_eq]
  · intro d parsed
    exact drawing_completes parsed (Diagram.boxes_fit_of_short (by decide)) roomy
  · exact Options.parse_json_cons accepted drawing
  · intro others acceptedOthers
    refine ⟨finish { o with json := !o.json } text, run_eq_finish acceptedOthers drawing fed readable, ?_⟩
    cases parsed : Diagram.parse text with
    | error error =>
      rw [finish_of_unread parsed, finish_of_unread parsed]
      exact ⟨rfl, fun _ => rfl⟩
    | ok d =>
      have good : (finish o text).code = 0 := finish_code_of_read parsed roomy
      have goodOther : (finish { o with json := !o.json } text).code = 0 := finish_code_of_read parsed roomy
      rw [good, goodOther]
      exact ⟨rfl, fun bad => absurd rfl bad⟩

/-- A message and its answer. -/
def askAndAnswer : Text := "A -> B: hi\nB -> A: bye".toList

theorem only_reading_refuses_ask_and_answer : ∃ exit : Exit,
    run (m := Id) false (fun _ => .ok askAndAnswer) ["--width".toList, "90".toList] = exit ∧
      exit.code = 0 := by
  obtain ⟨exit, ran, code, _⟩ := only_reading_refuses (m := Id) false (fun _ => .ok askAndAnswer) (pure ())
    ["--width".toList, "90".toList] { width := some 90 } askAndAnswer (by decide) rfl (by decide) rfl
    (by decide +kernel)
  have read : ∃ d, Diagram.parse askAndAnswer = .ok d := ⟨_, rfl⟩
  exact ⟨exit, ran, code.mpr read⟩

end CommandLine

end SequenceDiagram
