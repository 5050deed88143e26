import SequenceDiagram.Cast.Story
import SequenceDiagram.Proofs.Reading.Diagram
import SequenceDiagram.Proofs.Reading.Lines
import SequenceDiagram.Proofs.Reading.Statement

/-! Reading undoes printing. The lines of printed statements are cut where they were
joined, and each is read as its own statement. What is left of the reading is the fold
of the mentions over the cast: the text is a diagram exactly when no mention is
refused, and otherwise the first refusal is its error. -/
namespace SequenceDiagram

variable {s : Statement} {ss : List Statement}

/-! ### The fold of the mentions -/

theorem mentionsFrom_cons (line : Nat) (s : Statement) (ss : List Statement) :
    mentionsFrom line (s :: ss) = [(s.source, line), (s.target, line)] ++ mentionsFrom (line + 1) ss := by
  rw [mentionsFrom, List.zipIdx_cons, List.flatMap_cons]
  rfl

namespace Cast

theorem accept_of_ok {c next : Cast} {token name : Text} {line : Nat}
    (taken : c.refer token line = (.ok name, next)) : c.accept (token, line) = .ok next := by
  rw [accept, taken]

theorem accept_of_error {c next : Cast} {token : Text} {line : Nat} {e : LifecycleError}
    (refused : c.refer token line = (.error e, next)) : c.accept (token, line) = .error e := by
  rw [accept, refused]

theorem names_accept {c next : Cast} {token : Text} {line : Nat} (done : c.accept (token, line) = .ok next) :
    next.names = if Mention.nameOf token ∈ c.names then c.names else c.names ++ [Mention.nameOf token] := by
  unfold accept at done
  split at done
  · rename_i name cast accepted
    cases done
    obtain ⟨rfl, life, -, rfl⟩ := refer_eq_ok accepted
    exact names_setLifespan.trans names_enroll
  · cases done

theorem acceptAll_append (c : Cast) (first second : List (Text × Nat)) :
    c.acceptAll (first ++ second) = c.acceptAll first >>= fun c => c.acceptAll second :=
  List.foldlM_append

/-- The order of the cast is that of the first mentions. -/
theorem names_acceptAll {c next : Cast} {mentions : List (Text × Nat)} (before : List Text)
    (order : c.names = before.eraseDups) (done : c.acceptAll mentions = .ok next) :
    next.names = (before ++ mentions.map fun m => Mention.nameOf m.1).eraseDups := by
  induction mentions generalizing c before with
  | nil =>
    cases done
    simpa using order
  | cons m mentions ih =>
    rw [acceptAll, List.foldlM_cons] at done
    obtain ⟨middle, first, others⟩ := Attempt.bind_eq_ok.mp done
    have named := names_accept first
    rw [List.map_cons, List.append_cons]
    apply ih (before ++ [Mention.nameOf m.1]) _ others
    simp only [named, order, eraseDups_concat, List.mem_eraseDups]

end Cast

/-! ### The lines of a printed text -/

namespace Statement

theorem oneLine_arrow (a : Arrow) : '\n' ∉ a.token := by
  obtain ⟨weight, backward⟩ := a
  cases weight <;> cases backward <;> decide

theorem print_eq_spell (s : Statement) : s.print = s.spell 1 1 := by
  rw [print, spell]
  simp

theorem plain_print (printable : s.Printable) : s.print.Plain where
  full := by simp [print]
  oneLine := by
    simp [print, oneLine_actorToken printable.source, oneLine_actorToken printable.target, oneLine_arrow,
      printable.label.oneLine]
  ending := by
    obtain ⟨before, last, label⟩ := List.eq_nil_or_concat s.label |>.resolve_left printable.label.full
    have ending := printable.ending
    rw [label, List.concat_eq_append, List.getLast?_concat] at ending
    have line : s.print =
        (s.source ++ ' ' :: s.arrow.token ++ ' ' :: s.target ++ ':' :: ' ' :: before) ++ [last] := by
      simp [print, label]
    rw [line, List.getLast?_concat]
    exact ending

theorem printable_iff : s.Printable ↔
    ActorToken s.source ∧ ActorToken s.target ∧ LabelText s.label ∧ s.label.getLast? ≠ some '\r' :=
  ⟨fun printable => ⟨printable.source, printable.target, printable.label, printable.ending⟩,
    fun ⟨source, target, label, ending⟩ => ⟨⟨source, target, label⟩, ending⟩⟩

instance : DecidablePred Printable := fun _ => decidable_of_iff _ printable_iff.symm

end Statement

namespace Diagram

variable {d : Diagram}

theorem addStatement_eq (d : Diagram) (s : Statement) : d.addStatement s =
    (d.cast.acceptAll [(s.source, d.lineCount + 1), (s.target, d.lineCount + 1)]).map fun cast =>
      { cast, messages := d.messages ++ [s.message], lineCount := d.lineCount + 1 } := by
  rw [addStatement, Cast.acceptAll, List.foldlM_cons]
  rcases first : d.cast.refer s.source (d.lineCount + 1) with ⟨e | source, cast₁⟩
  · rw [Cast.accept_of_error first]
    rfl
  · obtain ⟨rfl, -⟩ := Cast.refer_eq_ok first
    rw [Cast.accept_of_ok first, Attempt.ok_bind, List.foldlM_cons]
    rcases second : cast₁.refer s.target (d.lineCount + 1) with ⟨e | target, cast₂⟩
    · rw [Cast.accept_of_error second]
      simp only [second]
      rfl
    · obtain ⟨rfl, -⟩ := Cast.refer_eq_ok second
      rw [Cast.accept_of_ok second]
      simp only [second]
      rfl

theorem addLine_print (d : Diagram) (proper : s.Proper) :
    d.addLine s.print = (d.addStatement s).mapError .lifecycle := by
  rw [addLine, readLine, Statement.print_eq_spell, Statement.read?_spell proper Nat.one_pos Nat.one_pos]

theorem foldlM_print (d : Diagram) (proper : ∀ s ∈ ss, s.Proper) : (ss.map Statement.print).foldlM addLine d =
    ((d.cast.acceptAll (mentionsFrom (d.lineCount + 1) ss)).map fun cast =>
      { cast, messages := d.messages ++ ss.map Statement.message, lineCount := d.lineCount + ss.length }).mapError
        .lifecycle := by
  induction ss generalizing d with
  | nil =>
    simp only [List.map_nil, List.append_nil]
    rfl
  | cons s ss ih =>
    obtain ⟨first, others⟩ := List.forall_mem_cons.mp proper
    rw [List.map_cons, List.foldlM_cons, addLine_print d first, addStatement_eq, mentionsFrom_cons,
      Cast.acceptAll_append]
    cases d.cast.acceptAll [(s.source, d.lineCount + 1), (s.target, d.lineCount + 1)] with
    | error e => rfl
    | ok cast =>
      have rest := ih { cast, messages := d.messages ++ [s.message], lineCount := d.lineCount + 1 } others
      rw [List.append_assoc, List.singleton_append, Nat.add_assoc, Nat.add_comm 1] at rest
      exact rest

theorem body_print (printable : ∀ s ∈ ss, s.Printable) :
    body (Text.join (ss.map Statement.print)) = ss.map Statement.print := by
  have plain : ∀ l ∈ ss.map Statement.print, l.Plain := by
    intro l member
    obtain ⟨s, s_mem, rfl⟩ := List.mem_map.mp member
    exact Statement.plain_print (printable s s_mem)
  rw [body, Text.lines_join plain]
  apply List.takeWhile_eq_self_iff.mpr
  intro l member
  simpa using (plain l member).full

/-- A text of printed statements is read as their diagram if the cast accepts their
mentions one after the other, and otherwise fails with the first refusal. -/
theorem parse_print (ss : List Statement) (printable : ∀ s ∈ ss, s.Printable) :
    parse (Text.join (ss.map Statement.print)) =
      (match ({} : Cast).acceptAll (mentionsFrom 1 ss) with
        | .ok cast => .ok { cast := cast.cap ss.length, messages := ss.map Statement.message, lineCount := ss.length }
        | .error e => .error (.lifecycle e)) ∧
    ∀ d, parse (Text.join (ss.map Statement.print)) = .ok d →
      d.cast.names = ((mentionsFrom 1 ss).map fun m => Mention.nameOf m.1).eraseDups := by
  have read : parse (Text.join (ss.map Statement.print)) =
      ((({} : Cast).acceptAll (mentionsFrom 1 ss)).map fun cast =>
        { cast := cast.cap ss.length, messages := ss.map Statement.message, lineCount := ss.length }).mapError
          .lifecycle := by
    rw [parse, body_print printable, foldlM_print {} fun s member => (printable s member).toProper]
    simp only [Nat.zero_add, List.nil_append]
    cases ({} : Cast).acceptAll (mentionsFrom 1 ss) <;> rfl
  rw [read]
  cases accepted : ({} : Cast).acceptAll (mentionsFrom 1 ss) with
  | error e => exact ⟨rfl, fun _ impossible => nomatch impossible⟩
  | ok cast =>
    refine ⟨rfl, ?_⟩
    rintro _ ⟨⟩
    rw [Cast.names_cap]
    exact Cast.names_acceptAll [] rfl accepted

/-- A name that ends in a blank and one with a marker, a label that looks like a statement and a mention
that ends a life which its own line begins. -/
def lookalikes : List Statement :=
  [⟨"A ".toList, ⟨.thin, false⟩, "B_2/".toList, "A -> /B: x".toList⟩,
    ⟨"C".toList, ⟨.thick, true⟩, "/C".toList, "=> ".toList⟩, ⟨"/A".toList, ⟨.thin, true⟩, "B_2".toList, [' ']⟩]

theorem parse_print_lookalikes :
    ∃ d, parse "A  -> B_2/: A -> /B: x\nC <= /C: => \n/A <- B_2:  ".toList = .ok d ∧
      d.cast.names = ["A".toList, "B_2".toList, "C".toList] ∧ d.messages.length = 3 := by
  obtain ⟨read, order⟩ := parse_print lookalikes (by decide)
  have accepted : ∃ cast, ({} : Cast).acceptAll (mentionsFrom 1 lookalikes) = .ok cast := ⟨_, rfl⟩
  obtain ⟨cast, accepted⟩ := accepted
  rw [accepted] at read
  exact ⟨_, read, (order _ read).trans (by decide), rfl⟩

end Diagram

end SequenceDiagram
