import Mathlib.Data.List.TakeWhile
import SequenceDiagram.Diagram

/-! Reading a line is exact. Each step of the reader takes off a piece of the
notation, and takes off any such piece that is followed by what the notation puts
there. So a line is read as a statement exactly when it writes that statement, and
there is only one way to write it there. -/
namespace SequenceDiagram.Statement

variable {line t token rest label opening name : Text} {first : Char} {a : Arrow} {s : Statement}
  {blanks gap margin : Nat}

/-! ### Runs of characters -/

theorem takeWhile_run {p : Char → Bool} {run : Text} (inside : ∀ c ∈ run, p c = true)
    (stops : ∀ c, rest.head? = some c → p c = false) : (run ++ rest).takeWhile p = run := by
  rw [List.takeWhile_append_of_pos inside]
  cases rest with
  | nil => exact List.append_nil run
  | cons c rest => rw [List.takeWhile_cons_of_neg (by simp [stops c rfl]), List.append_nil]

theorem dropWhile_run {p : Char → Bool} {run : Text} (inside : ∀ c ∈ run, p c = true)
    (stops : ∀ c, rest.head? = some c → p c = false) : (run ++ rest).dropWhile p = rest := by
  rw [List.dropWhile_append_of_pos inside]
  cases rest with
  | nil => rfl
  | cons c rest => rw [List.dropWhile_cons_of_neg (by simp [stops c rfl])]

theorem blanks_eq_replicate (t : Text) :
    t.takeWhile (· == ' ') = List.replicate (t.takeWhile (· == ' ')).length ' ' := by
  refine List.eq_replicate_of_mem fun c member => ?_
  simpa using List.mem_takeWhile_imp member

theorem head_dropWhile {p : Char → Bool} {c : Char} (head : (t.dropWhile p).head? = some c) : p c = false := by
  have failed := List.head?_dropWhile_not p t
  rw [head] at failed
  simpa using failed

theorem blank_of_replicate {n : Nat} : ∀ c ∈ List.replicate n ' ', (c == ' ') = true := by
  intro c member
  simpa using List.eq_of_mem_replicate member

theorem not_blank_of_head (starts : t.head? ≠ some ' ') : ∀ c, t.head? = some c → (c == ' ') = false := by
  intro c head
  have other : c ≠ ' ' := by
    rintro rfl
    exact starts head
  simpa using other

theorem takeWhile_blanks {n : Nat} (starts : t.head? ≠ some ' ') :
    (List.replicate n ' ' ++ t).takeWhile (· == ' ') = List.replicate n ' ' :=
  takeWhile_run blank_of_replicate (not_blank_of_head starts)

theorem blanks_injective {m n : Nat} {t u : Text} (t_starts : t.head? ≠ some ' ') (u_starts : u.head? ≠ some ' ')
    (same : List.replicate m ' ' ++ t = List.replicate n ' ' ++ u) : m = n ∧ t = u := by
  have runs := congrArg (List.takeWhile (· == ' ')) same
  rw [takeWhile_blanks t_starts, takeWhile_blanks u_starts] at runs
  have count : m = n := by simpa using congrArg List.length runs
  subst count
  exact ⟨rfl, List.append_cancel_left same⟩

/-! ### Actor tokens -/

theorem ne_slash_of_word {c : Char} (word : isWordChar c = true) : c ≠ '/' := by
  rintro rfl
  exact absurd word (by decide)

theorem ne_blank_of_word {c : Char} (word : isWordChar c = true) : c ≠ ' ' := by
  rintro rfl
  exact absurd word (by decide)

/-- Neither a name nor a token goes on with this. -/
def Ends (rest : Text) : Prop := ∀ c, rest.head? = some c → isNameChar c = false ∧ c ≠ '/'

theorem slash_stops (rest : Text) : ∀ c, ('/' :: rest).head? = some c → isNameChar c = false := by
  rintro c ⟨⟩
  decide

theorem takeSlash_of_ne (apart : t.head? ≠ some '/') : takeSlash t = ([], t) := by
  unfold takeSlash
  split
  · exact absurd rfl apart
  · rfl

theorem takeSlash_of_ends (ends : Ends rest) : takeSlash rest = ([], rest) :=
  takeSlash_of_ne fun head => (ends '/' head).2 rfl

theorem takeSlash_spec (t : Text) : OptionalSlash (takeSlash t).1 ∧ (takeSlash t).1 ++ (takeSlash t).2 = t := by
  unfold takeSlash
  split
  · exact ⟨.present, rfl⟩
  · exact ⟨.absent, rfl⟩

/-- A token is taken up to the end of its name, and with the slash behind that. -/
theorem takeToken?_eq (before : OptionalSlash opening) (starts : isWordChar first = true)
    (continues : ∀ c ∈ name, isNameChar c = true) (stops : ∀ c, rest.head? = some c → isNameChar c = false) :
    takeToken? (opening ++ first :: (name ++ rest)) =
      some (opening ++ first :: name ++ (takeSlash rest).1, (takeSlash rest).2) := by
  have opened : takeSlash (opening ++ first :: (name ++ rest)) = (opening, first :: (name ++ rest)) := by
    cases before with
    | absent => exact takeSlash_of_ne (by simpa using ne_slash_of_word starts)
    | present => rfl
  simp only [takeToken?, opened, starts, if_true, takeWhile_run continues stops, dropWhile_run continues stops]

theorem takeToken?_append (written : ActorToken token) (ends : Ends rest) :
    takeToken? (token ++ rest) = some (token, rest) := by
  obtain ⟨before, starts, continues, after⟩ := written
  cases after with
  | absent =>
    have taken := takeToken?_eq before starts continues fun c head => (ends c head).1
    rw [takeSlash_of_ends ends] at taken
    simpa using taken
  | present =>
    simpa [takeSlash] using takeToken?_eq before starts continues (slash_stops rest)

/-- A token takes along the blank in front of an arrow if it can, and then it is
given back. -/
theorem takeSource?_append (written : ActorToken token) (ends : Ends rest) :
    takeSource? (token ++ ' ' :: rest) = some (token, rest) := by
  obtain ⟨before, starts, continues, after⟩ := written
  cases after with
  | absent =>
    rename_i opening name first
    have longer : ∀ c ∈ name ++ [' '], isNameChar c = true := by
      intro c member
      rcases List.mem_append.mp member with member | blank
      · exact continues c member
      · rw [List.mem_singleton.mp blank]
        decide
    have taken := takeToken?_eq before starts longer fun c head => (ends c head).1
    rw [takeSlash_of_ends ends, List.append_nil] at taken
    have parts : opening ++ first :: name ++ [] ++ ' ' :: rest = opening ++ first :: (name ++ [' '] ++ rest) := by
      simp
    have last : opening ++ first :: (name ++ [' ']) = (opening ++ first :: name) ++ [' '] := by simp
    rw [takeSource?, parts, taken]
    simp only [last, List.getLast?_concat, if_true, List.dropLast_concat, List.append_nil]
  | present =>
    rename_i opening name first
    have taken := takeToken?_eq before starts continues (slash_stops (' ' :: rest))
    have parts : opening ++ first :: name ++ ['/'] ++ ' ' :: rest =
        opening ++ first :: (name ++ '/' :: ' ' :: rest) := by
      simp
    have last : opening ++ first :: name ++ ['/'] = (opening ++ first :: name) ++ ['/'] := rfl
    rw [takeSource?, parts, taken]
    simp only [takeSlash, List.getLast?_concat]
    rfl

theorem takeToken?_eq_some (taken : takeToken? t = some (token, rest)) : ActorToken token ∧ t = token ++ rest := by
  obtain ⟨before, opened⟩ := takeSlash_spec t
  rw [takeToken?] at taken
  cases named : (takeSlash t).2 with
  | nil => simp [named] at taken
  | cons first more =>
    simp only [named] at taken
    split at taken
    · rename_i starts
      obtain ⟨after, closed⟩ := takeSlash_spec (more.dropWhile isNameChar)
      obtain ⟨rfl, rfl⟩ := Prod.mk.inj (Option.some.inj taken)
      refine ⟨.intro before starts (fun c member => List.mem_takeWhile_imp member) after, ?_⟩
      have whole := List.takeWhile_append_dropWhile (p := isNameChar) (l := more)
      rw [named] at opened
      simp [closed, whole, opened]
    · cases taken

/-- A token that ends in a blank is still a token without it. -/
theorem actorToken_dropLast (written : ActorToken token) (blank : token.getLast? = some ' ') :
    ActorToken token.dropLast ∧ token.dropLast ++ [' '] = token := by
  obtain ⟨before, starts, continues, after⟩ := written
  rename_i opening closing name first
  cases after with
  | present =>
    rw [List.getLast?_concat, Option.some.injEq] at blank
    exact absurd blank (by decide)
  | absent =>
    rw [List.append_nil] at blank ⊢
    rcases List.eq_nil_or_concat name with rfl | ⟨shorter, last, rfl⟩
    · simp only [List.getLast?_concat, Option.some.injEq] at blank
      exact absurd blank (ne_blank_of_word starts)
    · rw [List.concat_eq_append] at continues blank ⊢
      have parts : opening ++ first :: (shorter ++ [last]) = (opening ++ first :: shorter) ++ [last] := by simp
      rw [parts] at blank ⊢
      simp only [List.getLast?_concat, Option.some.injEq] at blank
      subst blank
      rw [List.dropLast_concat]
      refine ⟨?_, rfl⟩
      have shorterWritten := ActorToken.intro before starts
        (fun c member => continues c (List.mem_append_left _ member)) .absent
      rwa [List.append_nil] at shorterWritten

theorem takeSource?_eq_some (taken : takeSource? t = some (token, rest)) :
    ActorToken token ∧ t = token ++ ' ' :: rest := by
  rw [takeSource?] at taken
  split at taken
  · cases taken
  · rename_i longer following found
    obtain ⟨written, rfl⟩ := takeToken?_eq_some found
    split at taken
    · rename_i blank
      cases taken
      obtain ⟨shorter, parts⟩ := actorToken_dropLast written blank
      refine ⟨shorter, ?_⟩
      calc longer ++ rest = longer.dropLast ++ [' '] ++ rest := by rw [parts]
        _ = longer.dropLast ++ ' ' :: rest := by rw [List.append_assoc, List.singleton_append]
    · split at taken
      · cases taken
        exact ⟨written, rfl⟩
      · cases taken

theorem actorToken_iff : ActorToken token ↔ takeToken? token = some (token, []) := by
  constructor
  · intro written
    have taken : takeToken? (token ++ []) = some (token, []) := takeToken?_append written fun _ head => nomatch head
    rwa [List.append_nil] at taken
  · exact fun taken => (takeToken?_eq_some taken).1

instance : DecidablePred ActorToken := fun _ => decidable_of_iff _ actorToken_iff.symm

theorem eq_slash_of_mem {t : Text} {c : Char} (slash : OptionalSlash t) (member : c ∈ t) : c = '/' := by
  cases slash with
  | absent => cases member
  | present => exact List.mem_singleton.mp member

/-- A token is made of name characters and slashes. -/
theorem mem_actorToken {token : Text} {c : Char} (written : ActorToken token) (member : c ∈ token) :
    isNameChar c = true ∨ c = '/' := by
  obtain ⟨before, starts, continues, after⟩ := written
  simp only [List.mem_append, List.mem_cons] at member
  rcases member with (slash | rfl | named) | slash
  · exact .inr (eq_slash_of_mem before slash)
  · exact .inl (by simp [isNameChar, starts])
  · exact .inl (continues c named)
  · exact .inr (eq_slash_of_mem after slash)

theorem oneLine_actorToken {token : Text} (written : ActorToken token) : '\n' ∉ token := by
  intro newline
  rcases mem_actorToken written newline with named | slash
  · cases named
  · cases slash

/-! ### The other pieces of a line -/

theorem takeArrow?_append (a : Arrow) (rest : Text) : takeArrow? (a.token ++ rest) = some (a, rest) := by
  obtain ⟨weight, backward⟩ := a
  cases weight <;> cases backward <;> rfl

theorem takeArrow?_eq_some (taken : takeArrow? t = some (a, rest)) : t = a.token ++ rest := by
  unfold takeArrow? at taken
  split at taken
  · obtain ⟨_, read, same⟩ := Option.map_eq_some_iff.mp taken
    obtain ⟨rfl, rfl⟩ := Prod.mk.inj same
    rw [Arrow.token_of_ofToken? read]
    rfl
  · cases taken

theorem skipBlanks?_append (parted : 0 < blanks) (stops : rest.head? ≠ some ' ') :
    skipBlanks? (List.replicate blanks ' ' ++ rest) = some rest := by
  obtain ⟨more, rfl⟩ := Nat.exists_eq_add_one_of_ne_zero (Nat.ne_of_gt parted)
  rw [List.replicate_succ, List.cons_append, skipBlanks?, dropWhile_run]
  · exact blank_of_replicate
  · exact not_blank_of_head stops

theorem skipBlanks?_eq_some (skipped : skipBlanks? t = some rest) :
    ∃ blanks, 0 < blanks ∧ t = List.replicate blanks ' ' ++ rest ∧ rest.head? ≠ some ' ' := by
  unfold skipBlanks? at skipped
  split at skipped
  · rename_i more
    cases skipped
    refine ⟨(more.takeWhile (· == ' ')).length + 1, Nat.succ_pos _, ?_, fun head => ?_⟩
    · rw [List.replicate_succ, List.cons_append, ← blanks_eq_replicate, List.takeWhile_append_dropWhile]
    · simpa using head_dropWhile head
  · cases skipped

theorem takeLabel?_append (parted : 0 < margin) (written : LabelText label) :
    takeLabel? (List.replicate margin ' ' ++ label) = some label := by
  obtain ⟨full, oneLine, visible⟩ := written
  rcases visible with visible | rfl
  · rw [takeLabel?, skipBlanks?_append parted visible]
    simp only [oneLine, if_false]
  · -- the blank that is the label is one of those skipped
    have skipped : skipBlanks? (List.replicate margin ' ' ++ [' ']) = some [] := by
      have blanks : List.replicate margin ' ' ++ [' '] = List.replicate (margin + 1) ' ' ++ [] := by
        rw [List.append_nil, List.replicate_succ']
      rw [blanks, skipBlanks?_append (Nat.succ_pos margin) (by simp)]
    have long : 2 ≤ (List.replicate margin ' ' ++ [' ']).length := by simp; omega
    rw [takeLabel?, skipped]
    simp only [long, if_true]

theorem takeLabel?_eq_some (taken : takeLabel? t = some label) :
    LabelText label ∧ ∃ margin, 0 < margin ∧ t = List.replicate margin ' ' ++ label := by
  rw [takeLabel?] at taken
  split at taken
  · cases taken
  · rename_i skipped
    split at taken
    · rename_i long
      cases taken
      obtain ⟨blanks, -, rfl, -⟩ := skipBlanks?_eq_some skipped
      simp only [List.append_nil, List.length_replicate] at long ⊢
      refine ⟨⟨by decide, by decide, .inr rfl⟩, blanks - 1, by omega, ?_⟩
      rw [← List.replicate_succ', Nat.sub_add_cancel (by omega)]
    · cases taken
  · rename_i following full skipped
    split at taken
    · cases taken
    · rename_i oneLine
      cases taken
      obtain ⟨margin, parted, rfl, visible⟩ := skipBlanks?_eq_some skipped
      exact ⟨⟨full, oneLine, .inl visible⟩, margin, parted, rfl⟩

theorem labelText_iff : LabelText label ↔ label ≠ [] ∧ '\n' ∉ label ∧ (label.head? ≠ some ' ' ∨ label = [' ']) :=
  ⟨fun written => ⟨written.full, written.oneLine, written.visible⟩,
    fun ⟨full, oneLine, visible⟩ => ⟨full, oneLine, visible⟩⟩

instance : DecidablePred LabelText := fun _ => decidable_of_iff _ labelText_iff.symm

/-! ### A whole line -/

theorem head_actorToken (written : ActorToken token) (rest : Text) : (token ++ rest).head? ≠ some ' ' := by
  obtain ⟨before, starts, -, -⟩ := written
  cases before with
  | absent => simpa using ne_blank_of_word starts
  | present => simp

theorem ends_arrow (a : Arrow) (rest : Text) : Ends (a.token ++ rest) := by
  obtain ⟨weight, backward⟩ := a
  cases weight <;> cases backward <;> · rintro c ⟨⟩; decide

theorem ends_colon (rest : Text) : Ends (':' :: rest) := by
  rintro c ⟨⟩
  decide

theorem spell_eq (s : Statement) (gap margin : Nat) : s.spell gap margin =
    s.source ++ ' ' :: (s.arrow.token ++ (List.replicate gap ' ' ++
      (s.target ++ ':' :: (List.replicate margin ' ' ++ s.label)))) := by
  simp [spell]

/-- Any number of blanks is skipped where the notation allows more than one. -/
theorem read?_spell (proper : s.Proper) (gapped : 0 < gap) (margined : 0 < margin) :
    read? (s.spell gap margin) = some s := by
  rw [spell_eq, read?, takeSource?_append proper.source (ends_arrow _ _)]
  simp only [Option.bind_eq_bind, Option.bind_some, takeArrow?_append,
    skipBlanks?_append gapped (head_actorToken proper.target _),
    takeToken?_append proper.target (ends_colon _), takeLabel?_append margined proper.label, Option.pure_def]

theorem read?_eq_some (read : read? line = some s) : WrittenBy line s := by
  rw [read?] at read
  simp only [Option.bind_eq_bind, Option.bind_eq_some_iff, Prod.exists] at read
  obtain ⟨source, _, sourceTaken, arrow, _, arrowTaken, _, skipped, target, _, targetTaken, read⟩ := read
  split at read
  · obtain ⟨label, labelTaken, made⟩ := Option.bind_eq_some_iff.mp read
    cases made
    obtain ⟨sourceWritten, rfl⟩ := takeSource?_eq_some sourceTaken
    obtain rfl := takeArrow?_eq_some arrowTaken
    obtain ⟨gap, gapped, rfl, -⟩ := skipBlanks?_eq_some skipped
    obtain ⟨targetWritten, rfl⟩ := takeToken?_eq_some targetTaken
    obtain ⟨labelWritten, margin, margined, rfl⟩ := takeLabel?_eq_some labelTaken
    exact ⟨gap, margin, ⟨sourceWritten, targetWritten, labelWritten⟩, gapped, margined, by rw [spell_eq]⟩
  · cases read

theorem read?_eq_some_iff : read? line = some s ↔ WrittenBy line s :=
  ⟨read?_eq_some, fun ⟨_, _, written⟩ => written.spelled ▸ read?_spell written.proper written.gapped written.margined⟩

instance (line : Text) : DecidablePred (WrittenBy line) := fun _ => decidable_of_iff _ read?_eq_some_iff

/-- A line leaves no choice of where its pieces end. -/
theorem WrittenWith.unique {s' : Statement} {gap' margin' : Nat} (written : WrittenWith line s gap margin)
    (written' : WrittenWith line s' gap' margin') : s = s' ∧ gap = gap' ∧ margin = margin' := by
  have same := read?_eq_some_iff.mpr ⟨gap, margin, written⟩
  rw [read?_eq_some_iff.mpr ⟨gap', margin', written'⟩] at same
  obtain rfl := Option.some.inj same
  have lines := written.spelled.symm.trans written'.spelled
  rw [spell_eq, spell_eq] at lines
  have afterArrow := List.append_cancel_left (List.cons.inj (List.append_cancel_left lines)).2
  have starts := head_actorToken written.proper.target
  obtain ⟨gaps, afterGap⟩ := blanks_injective (starts _) (starts _) afterArrow
  have afterColon := (List.cons.inj (List.append_cancel_left afterGap)).2
  have margins := congrArg List.length (List.append_cancel_right afterColon)
  rw [List.length_replicate, List.length_replicate] at margins
  exact ⟨rfl, gaps, margins⟩

end SequenceDiagram.Statement
