import SequenceDiagram.Proofs.Reading.Pattern
import SequenceDiagram.Proofs.Reading.Statement
import SequenceDiagram.Statement.Basic

/-! The reader finds the match of the notation's pattern. After an actor token, an arrow
and the blanks behind it the pattern can go on from one place only, and the reader's
step leads there. The blanks in front of a label are the one piece where the order of
the ways decides. -/
namespace SequenceDiagram.Statement
open Pattern
open scoped Computability

variable {groups : List Text} {t : Text}

/-! ### The pieces of the notation -/

theorem mem_slash {piece : Text} : piece ∈ exactly ['/'] + 1 ↔ OptionalSlash piece := by
  constructor
  · rintro (rfl | rfl)
    · exact .present
    · exact .absent
  · rintro (_ | _)
    · exact .inr rfl
    · exact .inl rfl

/-- A run of word characters and the blanks behind it. -/
def chunk : Language Char := letters isWordChar * (letters isWordChar)∗ * (letters (· == ' '))∗

theorem mem_chunk {piece : Text} : piece ∈ chunk ↔ ∃ first word blanks, isWordChar first = true ∧
    (∀ c ∈ word, isWordChar c = true) ∧ (∀ c ∈ blanks, (c == ' ') = true) ∧ piece = first :: (word ++ blanks) := by
  constructor
  · rintro ⟨_, ⟨_, ⟨first, starts, rfl⟩, word, word_mem, rfl⟩, blanks, blanks_mem, rfl⟩
    exact ⟨first, word, blanks, starts, mem_kstar_letters.mp word_mem, mem_kstar_letters.mp blanks_mem, rfl⟩
  · rintro ⟨first, word, blanks, starts, word_mem, blanks_mem, rfl⟩
    exact ⟨first :: word, ⟨[first], ⟨first, starts, rfl⟩, word, mem_kstar_letters.mpr word_mem, rfl⟩,
      blanks, mem_kstar_letters.mpr blanks_mem, rfl⟩

theorem nil_not_mem_chunk : [] ∉ chunk := by
  intro member
  obtain ⟨_, _, _, _, _, _, ⟨⟩⟩ := mem_chunk.mp member

theorem isNameChar_of_word {c : Char} (word : isWordChar c = true) : isNameChar c = true := by
  simp [isNameChar, word]

theorem isNameChar_of_chunk {piece : Text} (member : piece ∈ chunk) : ∀ c ∈ piece, isNameChar c = true := by
  obtain ⟨first, word, blanks, starts, word_mem, blanks_mem, rfl⟩ := mem_chunk.mp member
  intro c c_mem
  rcases List.mem_cons.mp c_mem with rfl | c_mem
  · exact isNameChar_of_word starts
  · rcases List.mem_append.mp c_mem with c_mem | c_mem
    · exact isNameChar_of_word (word_mem c c_mem)
    · simp [isNameChar, blanks_mem c c_mem]

theorem isNameChar_of_chunks {piece : Text} (member : piece ∈ chunk∗) : ∀ c ∈ piece, isNameChar c = true := by
  obtain ⟨pieces, rfl, all⟩ := Language.mem_kstar.mp member
  intro c c_mem
  obtain ⟨piece, piece_mem, c_mem⟩ := List.mem_flatten.mp c_mem
  exact isNameChar_of_chunk (all piece piece_mem) c c_mem

/-- A run of name characters falls into chunks unless it starts with a blank. -/
theorem chunks_of_name (name : Text) (inside : ∀ c ∈ name, isNameChar c = true) (starts : name.head? ≠ some ' ') :
    name ∈ chunk∗ := by
  cases name with
  | nil => exact Language.nil_mem_kstar chunk
  | cons first more =>
    have word : isWordChar first = true := by
      have named := inside first List.mem_cons_self
      have visible : first ≠ ' ' := fun blank => starts (by rw [blank]; rfl)
      simpa [isNameChar, visible] using named
    -- the chunk at the start, and a shorter name behind it
    let after := more.dropWhile isWordChar
    let rest := after.dropWhile (· == ' ')
    have cut : first :: more = first :: (more.takeWhile isWordChar ++ after.takeWhile (· == ' ')) ++ rest := by
      rw [List.cons_append, List.append_assoc, List.takeWhile_append_dropWhile, List.takeWhile_append_dropWhile]
    have part : rest <:+ more := (List.dropWhile_suffix _).trans (List.dropWhile_suffix _)
    have shorter : rest.length < (first :: more).length := Nat.lt_succ_of_le part.length_le
    have others : rest ∈ chunk∗ := by
      apply chunks_of_name rest
      · exact fun c member => inside c (List.mem_cons_of_mem _ (part.subset member))
      · intro blank
        simpa using head_dropWhile blank
    rw [cut]
    apply append_mem_kstar _ others
    exact mem_chunk.mpr ⟨first, _, _, word, fun c => List.mem_takeWhile_imp, fun c => List.mem_takeWhile_imp, rfl⟩
termination_by name.length

theorem mem_name {piece : Text} : piece ∈ chunk * chunk∗ ↔
    ∃ first name, isWordChar first = true ∧ (∀ c ∈ name, isNameChar c = true) ∧ piece = first :: name := by
  constructor
  · rintro ⟨a, a_mem, b, b_mem, rfl⟩
    have inside := isNameChar_of_chunk a_mem
    obtain ⟨first, word, blanks, starts, -, -, rfl⟩ := mem_chunk.mp a_mem
    refine ⟨first, word ++ blanks ++ b, starts, fun c member => ?_, rfl⟩
    rcases List.mem_append.mp member with member | member
    · exact inside c (List.mem_cons_of_mem _ member)
    · exact isNameChar_of_chunks b_mem c member
  · rintro ⟨first, name, starts, inside, rfl⟩
    have chunks : first :: name ∈ chunk∗ := by
      apply chunks_of_name
      · intro c member
        rcases List.mem_cons.mp member with rfl | member
        · exact isNameChar_of_word starts
        · exact inside c member
      · simpa using ne_blank_of_word starts
    rw [← Language.one_add_self_mul_kstar_eq_kstar] at chunks
    rcases chunks with ⟨⟨⟩⟩ | chunks
    exact chunks

theorem tokenPattern_spells : tokenPattern.Spells {token | ActorToken token} := by
  have slash : (optional (char '/')).Spells {piece | OptionalSlash piece} :=
    (spells_char '/').optional.of_iff fun _ => mem_slash
  have chunks : (seq (atLeastOne (one isWordChar)) (many (char ' '))).Spells chunk :=
    ((spells_one isWordChar).atLeastOne nil_not_mem_letters).seq ((spells_one (· == ' ')).many nil_not_mem_letters)
  apply (slash.seq ((chunks.atLeastOne nil_not_mem_chunk).seq slash)).of_iff
  intro token
  constructor
  · rintro ⟨opening, before, _, ⟨named, named_mem, closing, after, rfl⟩, rfl⟩
    obtain ⟨first, name, starts, continues, rfl⟩ := mem_name.mp named_mem
    have written := ActorToken.intro before starts continues after
    rwa [List.append_assoc] at written
  · rintro ⟨before, starts, continues, after⟩
    have named := mem_name.mpr ⟨_, _, starts, continues, rfl⟩
    exact ⟨_, before, _, ⟨_, named, _, after, rfl⟩, (List.append_assoc _ _ _).symm⟩

theorem arrowPattern_spells : arrowPattern.Spells {piece | ∃ a : Arrow, piece = a.token} := by
  apply ((spells_literal _).either ((spells_literal _).either ((spells_literal _).either (spells_literal _)))).of_iff
  intro piece
  constructor
  · rintro (rfl | rfl | rfl | rfl)
    · exact ⟨⟨.thick, true⟩, rfl⟩
    · exact ⟨⟨.thin, true⟩, rfl⟩
    · exact ⟨⟨.thin, false⟩, rfl⟩
    · exact ⟨⟨.thick, false⟩, rfl⟩
  · rintro ⟨⟨weight, backward⟩, rfl⟩
    cases weight <;> cases backward
    · exact .inr (.inr (.inl rfl))
    · exact .inr (.inl rfl)
    · exact .inr (.inr (.inr rfl))
    · exact .inl rfl

theorem blanks_spells : (atLeastOne (char ' ')).Spells {piece | ∃ n, 0 < n ∧ piece = List.replicate n ' '} := by
  apply ((spells_one (· == ' ')).atLeastOne nil_not_mem_letters).of_iff
  intro piece
  constructor
  · intro member
    obtain ⟨full, blank⟩ := mem_letters_mul_kstar.mp member
    have same : piece = List.replicate piece.length ' ' := by
      apply List.eq_replicate_of_mem
      intro c c_mem
      simpa using blank c c_mem
    exact ⟨piece.length, List.length_pos_iff.mpr full, same⟩
  · rintro ⟨n, parted, rfl⟩
    apply mem_letters_mul_kstar.mpr
    exact ⟨List.ne_nil_of_length_pos (by simpa using parted), blank_of_replicate⟩

/-! ### The parts of a line -/

/-- The whole text, if the pattern lets it be a label. -/
def whole? (t : Text) : Option Text := if t ≠ [] ∧ '\n' ∉ t then some t else none

theorem labelPattern_completion (groups : List Text) (t : Text) :
    labelPattern.completion groups t = (whole? t).map fun label => groups ++ [label] := by
  have spells := (spells_one (· != '\n')).atLeastOne nil_not_mem_letters
  have inside : ∀ piece, piece ∈ letters (· != '\n') * (letters (· != '\n'))∗ ↔ piece ≠ [] ∧ '\n' ∉ piece := by
    intro piece
    rw [mem_letters_mul_kstar]
    apply and_congr_right
    intro _
    constructor
    · intro inside newline
      simpa using inside '\n' newline
    · intro oneLine c member
      have other : c ≠ '\n' := fun same => oneLine (same ▸ member)
      simpa using other
  rw [labelPattern, completion, search_seq, spells.search_group_eq (whole? t) id (fun _ => [])]
  · cases whole? t <;> rfl
  · intro label found
    unfold whole? at found
    split at found
    · rename_i fits
      cases found
      exact ⟨(inside t).mpr fits, (List.append_nil t).symm⟩
    · cases found
  · intro piece member rest cut goes
    rw [search_stop] at goes
    split at goes
    · rename_i ended
      rw [ended, List.append_nil] at cut
      rw [cut, whole?, if_pos ((inside piece).mp member)]
      exact ⟨piece, rfl, ended.symm⟩
    · exact absurd rfl goes

/-- With one more blank in front, the blank itself is a label where nothing else is. -/
theorem takeLabel?_two_blanks (t : Text) :
    takeLabel? (' ' :: ' ' :: t) = (takeLabel? (' ' :: t)).or (whole? (' ' :: t)) := by
  have part : t.dropWhile (· == ' ') <:+ t := List.dropWhile_suffix _
  simp only [takeLabel?, skipBlanks?, List.dropWhile_cons_of_pos, beq_self_eq_true]
  cases rest : t.dropWhile (· == ' ') with
  | nil => cases t <;> simp [whole?]
  | cons c label =>
    rw [rest] at part
    by_cases newline : '\n' ∈ c :: label
    · have later : '\n' ∈ t := part.subset newline
      simp [newline, whole?, later]
    · simp [newline]

theorem takeLabel?_visible {c : Char} (visible : c ≠ ' ') (t : Text) :
    takeLabel? (' ' :: c :: t) = whole? (c :: t) := by
  have stays : (c :: t).dropWhile (· == ' ') = c :: t := List.dropWhile_cons_of_neg (by simpa using visible)
  rw [takeLabel?, skipBlanks?, stays]
  by_cases newline : '\n' ∈ c :: t <;> simp [whole?, newline]

/-- In front of a label the search skips all blanks, except where none would be left for
the label. -/
theorem label_after_blanks (groups : List Text) (t : Text) :
    ((many (char ' ')).search ⟨groups, t⟩ fun place => labelPattern.search place (some ∘ Place.groups)) =
      (takeLabel? (' ' :: t)).map fun label => groups ++ [label] := by
  have label := labelPattern_completion groups
  unfold completion at label
  induction t with
  | nil =>
    rw [search_many_char]
    exact label []
  | cons c t ih =>
    rw [search_many_char]
    by_cases blank : c = ' '
    · subst blank
      simp only [if_true]
      rw [ih, label, takeLabel?_two_blanks, Option.map_or]
    · simp only [blank, if_false]
      rw [label, takeLabel?_visible blank]

theorem labelPart_completion (groups : List Text) (t : Text) :
    labelPart.completion groups t = (takeLabel? t).map fun label => groups ++ [label] := by
  rw [labelPart, completion, search_seq, atLeastOne, search_seq, search_char]
  cases t with
  | nil => rfl
  | cons c t =>
    by_cases blank : c = ' '
    · simp only [blank, if_true]
      exact label_after_blanks groups t
    · simp [blank, takeLabel?, skipBlanks?]

theorem targetPart_completion (groups : List Text) (t : Text) : targetPart.completion groups t =
    (takeToken? t).bind fun (target, rest) => match rest with
      | ':' :: rest => labelPart.completion (groups ++ [target]) rest
      | _ => none := by
  rw [targetPart, completion, search_seq,
    tokenPattern_spells.search_group_eq (takeToken? t) Prod.fst Prod.snd (fun taken => takeToken?_eq_some)]
  · apply Option.bind_congr
    rintro ⟨target, rest⟩ -
    rw [search_seq, search_char]
    cases rest with
    | nil => rfl
    | cons c rest => by_cases colon : c = ':' <;> simp [colon, completion]
  · intro target written rest cut goes
    obtain ⟨rest, rfl, -⟩ := rest_of_search_char goes
    exact ⟨(target, ':' :: rest), cut ▸ takeToken?_append written (ends_colon rest), rfl⟩

theorem head_of_targetPart (goes : targetPart.completion groups t ≠ none) : t.head? ≠ some ' ' := by
  rw [targetPart_completion] at goes
  cases taken : takeToken? t with
  | none => simp [taken] at goes
  | some found =>
    obtain ⟨written, rfl⟩ := takeToken?_eq_some taken
    exact head_actorToken written found.2

theorem arrowPart_completion (groups : List Text) (t : Text) : arrowPart.completion groups t =
    (takeArrow? t).bind fun (arrow, rest) =>
      (skipBlanks? rest).bind (targetPart.completion (groups ++ [arrow.token])) := by
  rw [arrowPart, completion, search_seq,
    arrowPattern_spells.search_group_eq (takeArrow? t) (fun taken => taken.1.token) Prod.snd]
  · apply Option.bind_congr
    rintro ⟨arrow, rest⟩ -
    rw [search_seq, blanks_spells.search_eq (skipBlanks? rest) id]
    · rfl
    · intro following skipped
      obtain ⟨n, parted, cut, -⟩ := skipBlanks?_eq_some skipped
      exact ⟨_, ⟨n, parted, rfl⟩, cut⟩
    · rintro _ ⟨n, parted, rfl⟩ following rfl goes
      exact ⟨following, skipBlanks?_append parted (head_of_targetPart goes), rfl⟩
  · rintro ⟨arrow, rest⟩ taken
    exact ⟨⟨arrow, rfl⟩, takeArrow?_eq_some taken⟩
  · rintro _ ⟨arrow, rfl⟩ rest rfl -
    exact ⟨(arrow, rest), takeArrow?_append arrow rest, rfl⟩

theorem ends_of_arrowPart (goes : arrowPart.completion groups t ≠ none) : Ends t := by
  rw [arrowPart_completion] at goes
  cases taken : takeArrow? t with
  | none => simp [taken] at goes
  | some found =>
    obtain rfl := takeArrow?_eq_some taken
    exact ends_arrow found.1 found.2

theorem linePattern_completion (groups : List Text) (t : Text) : linePattern.completion groups t =
    (takeSource? t).bind fun (source, rest) => arrowPart.completion (groups ++ [source]) rest := by
  rw [linePattern, completion, search_seq,
    tokenPattern_spells.search_group_eq (takeSource? t) Prod.fst (fun taken => ' ' :: taken.2)]
  · apply Option.bind_congr
    rintro ⟨source, rest⟩ -
    rw [search_seq, search_char]
    rfl
  · rintro ⟨source, rest⟩ taken
    exact takeSource?_eq_some taken
  · intro source written rest cut goes
    obtain ⟨rest, rfl, further⟩ := rest_of_search_char goes
    exact ⟨(source, rest), cut ▸ takeSource?_append written (ends_of_arrowPart further), rfl⟩

/-- The groups of the match are the pieces of the statement that is read. -/
theorem match?_linePattern (line : Text) :
    linePattern.match? line = (read? line).map fun s => [s.source, s.arrow.token, s.target, s.label] := by
  rw [match?_eq, linePattern_completion, read?]
  simp only [Option.bind_eq_bind, Option.map_bind]
  apply Option.bind_congr
  rintro ⟨source, line⟩ -
  rw [arrowPart_completion]
  simp only [Function.comp, Option.map_bind]
  apply Option.bind_congr
  rintro ⟨arrow, line⟩ -
  apply Option.bind_congr
  intro line _
  rw [targetPart_completion]
  apply Option.bind_congr
  rintro ⟨target, line⟩ -
  cases line with
  | nil => rfl
  | cons c line =>
    by_cases colon : c = ':'
    · simp only [colon]
      rw [labelPart_completion, Option.map_bind]
      cases takeLabel? line <;> rfl
    · simp [colon]

example : linePattern.match? "A  ->  B /:   ".toList = some ["A ".toList, "->".toList, "B /".toList, [' ']] := by
  rw [match?_linePattern]
  decide

theorem ofGroups?_groups (s : Statement) : ofGroups? [s.source, s.arrow.token, s.target, s.label] = some s := by
  rw [ofGroups?, Arrow.ofToken?_token, Option.map_some]

end SequenceDiagram.Statement

namespace SequenceDiagram.Diagram
open Statement Pattern

/-- A line is read exactly when it writes a statement, and then as that statement; any
other line is malformed under its own number. A line writes one statement at most, with
one number of blanks at each place. The pattern of the notation says the same: its match
has the groups of the statement that is read. -/
theorem readLine_exact (number : Nat) (line : Text) :
    (∀ s, readLine number line = .ok s ↔ WrittenBy line s) ∧
    (readLine number line = .error (.malformed number) ↔ ∀ s, ¬WrittenBy line s) ∧
    (∀ s gap margin s' gap' margin', WrittenWith line s gap margin → WrittenWith line s' gap' margin' →
      s = s' ∧ gap = gap' ∧ margin = margin') ∧
    readLine number line = match (linePattern.match? line).bind ofGroups? with
      | some s => .ok s
      | none => .error (.malformed number) := by
  have groups : (linePattern.match? line).bind ofGroups? = read? line := by
    rw [match?_linePattern, Option.bind_map]
    simp only [Function.comp_def, ofGroups?_groups, Option.bind_fun_some]
  have ok_iff : ∀ s, readLine number line = .ok s ↔ read? line = some s := by
    intro s
    unfold readLine
    cases read? line <;> simp
  have error_iff : readLine number line = .error (.malformed number) ↔ read? line = none := by
    unfold readLine
    cases read? line <;> simp
  refine ⟨fun s => (ok_iff s).trans read?_eq_some_iff, ?_, fun _ _ _ _ _ _ => WrittenWith.unique, ?_⟩
  · rw [error_iff, Option.eq_none_iff_forall_ne_some]
    exact forall_congr' fun s => not_congr read?_eq_some_iff
  · rw [groups, readLine]
    cases read? line <;> rfl

end SequenceDiagram.Diagram
