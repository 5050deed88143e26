import SequenceDiagram.Text.Basic

/-! Lines as a person wrote them. A line is read up to its newline whatever follows,
so lines that were joined come back one by one. Two kinds do not: an empty last line
leaves nothing to read, and a carriage return before the newline goes with it. What
comes back of any lines that are joined and read again follows from these two. -/
namespace SequenceDiagram.Text

variable {l : Text} {ls : List Text} {c : Char} {t : Text}

theorem lines_cons (inside : c ≠ '\n') (kept : c = '\r' → t.head? ≠ some '\n') :
    lines (c :: t) = consFirst c (lines t) := by
  rw [lines]
  · exact fun newline => inside newline
  · rintro rest rfl rfl
    exact kept rfl rfl

theorem lines_append (oneLine : '\n' ∉ l) (ending : l.getLast? ≠ some '\r') (rest : Text) :
    lines (l ++ '\n' :: rest) = l :: lines rest := by
  induction l with
  | nil => rw [List.nil_append, lines]
  | cons c l ih =>
    have inside : c ≠ '\n' := fun newline => oneLine (newline ▸ List.mem_cons_self)
    have oneLine : '\n' ∉ l := fun newline => oneLine (List.mem_cons_of_mem _ newline)
    cases l with
    | nil =>
      have kept : c ≠ '\r' := fun last => ending (by rw [last]; rfl)
      rw [List.cons_append, lines_cons inside fun last => absurd last kept, List.nil_append, lines, consFirst]
    | cons d l =>
      have next : (d :: l ++ '\n' :: rest).head? ≠ some '\n' := by
        simp only [List.cons_append, List.head?_cons, ne_eq, Option.some.injEq]
        exact fun newline => oneLine (newline ▸ List.mem_cons_self)
      rw [List.getLast?_cons_cons] at ending
      rw [List.cons_append, lines_cons inside fun _ => next, ih oneLine ending, consFirst]

theorem lines_append_return (oneLine : '\n' ∉ l) (rest : Text) :
    lines (l ++ '\r' :: '\n' :: rest) = l :: lines rest := by
  induction l with
  | nil => rw [List.nil_append, lines]
  | cons c l ih =>
    obtain ⟨inside, oneLine⟩ := List.ne_and_not_mem_of_not_mem_cons oneLine
    have next : (l ++ '\r' :: '\n' :: rest).head? ≠ some '\n' := by
      cases l with
      | nil => simp
      | cons d l => simpa using Ne.symm (List.ne_of_not_mem_cons oneLine)
    rw [List.cons_append, lines_cons (Ne.symm inside) fun _ => next, ih oneLine, consFirst]

/-- A line without the carriage return at its end, if there is one. -/
def dropReturn (l : Text) : Text := if l.getLast? = some '\r' then l.dropLast else l

/-- A line that does not end the text is read up to its newline, a carriage return at its end excepted. -/
theorem lines_append_newline (oneLine : '\n' ∉ l) (rest : Text) :
    lines (l ++ '\n' :: rest) = dropReturn l :: lines rest := by
  rw [dropReturn]
  split
  · rename_i ending
    obtain ⟨start, rfl⟩ := List.getLast?_eq_some_iff.mp ending
    have start_oneLine : '\n' ∉ start := fun newline => oneLine (List.mem_append_left _ newline)
    rw [List.dropLast_concat, List.append_assoc]
    exact lines_append_return start_oneLine rest
  · rename_i ending
    exact lines_append oneLine ending rest

theorem oneLine_of_mem_lines (line : l ∈ lines t) : '\n' ∉ l := by
  fun_induction lines t generalizing l with
  | case1 => cases line
  | case2 rest ih | case3 rest ih =>
    rcases List.mem_cons.mp line with rfl | later
    · exact List.not_mem_nil
    · exact ih later
  | case4 c rest inside _ ih =>
    have apart : '\n' ≠ c := fun newline => inside newline.symm
    cases found : lines rest with
    | nil =>
      rw [found, consFirst, List.mem_singleton] at line
      rw [line]
      exact List.not_mem_cons_of_ne_of_not_mem apart List.not_mem_nil
    | cons first others =>
      rw [found] at ih
      rw [found, consFirst, List.mem_cons] at line
      rcases line with rfl | later
      · exact List.not_mem_cons_of_ne_of_not_mem apart (ih List.mem_cons_self)
      · exact ih (List.mem_cons_of_mem _ later)

/-- The text up to the end of the line with this number, its line break included; all
of the text where it has fewer lines. -/
def firstLines : Nat → Text → Text
  | 0, _ => []
  | _ + 1, [] => []
  | count + 1, c :: t => c :: firstLines (if c = '\n' then count else count + 1) t

theorem firstLines_newline (count : Nat) (t : Text) : firstLines (count + 1) ('\n' :: t) = '\n' :: firstLines count t := rfl

theorem firstLines_cons (inside : c ≠ '\n') (count : Nat) (t : Text) :
    firstLines (count + 1) (c :: t) = c :: firstLines (count + 1) t := by
  rw [firstLines, if_neg inside]

theorem take_consFirst (c : Char) (count : Nat) (ls : List Text) :
    (consFirst c ls).take (count + 1) = consFirst c (ls.take (count + 1)) := by
  cases ls <;> simp [consFirst]

/-- Cut at the end of a line, a text has the lines up to there. -/
theorem lines_firstLines (count : Nat) (t : Text) : lines (firstLines count t) = (lines t).take count := by
  fun_induction lines t generalizing count with
  | case1 => cases count <;> rfl
  | case2 rest ih =>
    cases count with
    | zero => rfl
    | succ count => rw [firstLines_newline, lines, ih, List.take_succ_cons]
  | case3 rest ih =>
    cases count with
    | zero => rfl
    | succ count => rw [firstLines_cons (by decide), firstLines_newline, lines, ih, List.take_succ_cons]
  | case4 c rest inside kept ih =>
    cases count with
    | zero => rfl
    | succ count =>
      have next : c = '\r' → (firstLines (count + 1) rest).head? ≠ some '\n' := by
        intro returned
        cases rest with
        | nil => simp [firstLines]
        | cons d rest =>
          rw [firstLines, List.head?_cons, ne_eq, Option.some.injEq]
          exact fun newline => kept rest returned (by rw [newline])
      rw [firstLines_cons inside, lines_cons inside next, ih, take_consFirst]

example : firstLines 2 ['a', '\r', '\n', '\n', 'b'] = ['a', '\r', '\n', '\n'] := by decide

/-- A carriage return at the end of the text belongs to its line. -/
theorem lines_single (full : l ≠ []) (oneLine : '\n' ∉ l) : lines l = [l] := by
  induction l with
  | nil => exact absurd rfl full
  | cons c l ih =>
    have inside : c ≠ '\n' := fun newline => oneLine (newline ▸ List.mem_cons_self)
    have oneLine : '\n' ∉ l := fun newline => oneLine (List.mem_cons_of_mem _ newline)
    have next : l.head? ≠ some '\n' := fun newline => oneLine (List.mem_of_head? newline)
    rw [lines_cons inside fun _ => next]
    cases l with
    | nil => rfl
    | cons d l => rw [ih (List.cons_ne_nil d l) oneLine, consFirst]

/-- What may stand between two newlines and be read as it is. -/
structure Plain (l : Text) : Prop where
  full : l ≠ []
  oneLine : '\n' ∉ l
  ending : l.getLast? ≠ some '\r'

/-- What comes back of lines that are joined and read again. -/
def reread : List Text → List Text
  | [] => []
  | [last] => if last = [] then [] else [last]
  | l :: next :: ls => dropReturn l :: reread (next :: ls)

theorem lines_join_eq_reread (oneLine : ∀ l ∈ ls, '\n' ∉ l) : lines (join ls) = reread ls := by
  induction ls with
  | nil => rfl
  | cons l ls ih =>
    obtain ⟨first, others⟩ := List.forall_mem_cons.mp oneLine
    cases ls with
    | nil =>
      rw [join, List.intercalate_singleton, reread]
      split
      · rename_i empty
        rw [empty, lines]
      · rename_i full
        exact lines_single full first
    | cons l' ls =>
      rw [join, List.intercalate_cons_cons, List.append_assoc, List.singleton_append, lines_append_newline first, reread]
      exact congrArg (dropReturn l :: ·) (ih others)

theorem reread_of_plain (plain : ∀ l ∈ ls, Plain l) : reread ls = ls := by
  induction ls with
  | nil => rfl
  | cons l ls ih =>
    obtain ⟨first, others⟩ := List.forall_mem_cons.mp plain
    cases ls with
    | nil => rw [reread, if_neg first.full]
    | cons l' ls => rw [reread, ih others, dropReturn, if_neg first.ending]

theorem lines_join (plain : ∀ l ∈ ls, Plain l) : lines (join ls) = ls :=
  (lines_join_eq_reread fun l member => (plain l member).oneLine).trans (reread_of_plain plain)

end SequenceDiagram.Text
