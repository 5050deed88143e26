import Mathlib.Data.List.TakeWhile
import SequenceDiagram.Json.Reader

/-! The reader keeps to the grammar: whatever writes a value, by whichever spaces and
escapes, is read as that value. A text is cut where its parts end, so each reader is
given its part with anything behind it; a number alone needs that no digit follows. -/
namespace SequenceDiagram.Json

variable {α : Type} {c closing : Char} {s t rest : Text} {v : Json} {n size bound : Nat}

/-- The brackets that end a list or record. -/
def Closes (c : Char) : Prop := c = ']' ∨ c = '\x7d'

/-- The text begins with a part of a value and not with a space or a closing bracket. -/
def Opens (t : Text) : Prop := ∃ c rest, t = c :: rest ∧ isSpace c = false ∧ ¬Closes c

/-- No number goes on at the start of the text. -/
def Ends (t : Text) : Prop := ∀ c, t.head? = some c → c.isDigit = false

theorem skipSpaces_append (spaces : Spaces t) (stops : ∀ c, rest.head? = some c → isSpace c = false) :
    skipSpaces (t ++ rest) = rest := by
  unfold skipSpaces
  rw [List.dropWhile_append_of_pos spaces]
  cases rest with
  | nil => rfl
  | cons c rest => exact List.dropWhile_cons_of_neg (by simp [stops c rfl])

theorem skipSpaces_append_cons (spaces : Spaces t) (visible : isSpace c = false) (rest : Text) :
    skipSpaces (t ++ c :: rest) = c :: rest := by
  apply skipSpaces_append spaces
  rintro _ ⟨⟩
  exact visible

theorem skipSpaces_eq_nil (spaces : Spaces t) : skipSpaces t = [] := List.dropWhile_eq_nil_iff.mpr spaces

theorem Closes.facts (closes : Closes c) : isSpace c = false ∧ c ≠ ',' ∧ c.isDigit = false := by
  rcases closes with rfl | rfl
  · exact ⟨rfl, by decide, rfl⟩
  · exact ⟨rfl, by decide, rfl⟩

theorem Opens.stops (opens : Opens t) (rest : Text) : ∀ c, (t ++ rest).head? = some c → isSpace c = false := by
  obtain ⟨first, more, rfl, visible, _⟩ := opens
  rintro c ⟨⟩
  exact visible

theorem ends_nil : Ends [] := by
  rintro _ ⟨⟩

theorem ends_cons (noDigit : c.isDigit = false) : Ends (c :: rest) := by
  rintro _ ⟨⟩
  exact noDigit

theorem ends_append (spaces : Spaces t) (ends : Ends rest) : Ends (t ++ rest) := by
  cases t with
  | nil => exact ends
  | cons c t =>
    apply ends_cons
    have space := spaces c List.mem_cons_self
    simp only [isSpace, Bool.or_eq_true, beq_iff_eq] at space
    rcases space with ((rfl | rfl) | rfl) | rfl <;> rfl

theorem lookup_shortEscapes {e : Char} (listed : (e, c) ∈ shortEscapes) :
    e ≠ 'u' ∧ shortEscapes.lookup e = some c := by
  have all : ∀ pair ∈ shortEscapes, pair.1 ≠ 'u' ∧ shortEscapes.lookup pair.1 = some pair.2 := by decide
  exact all (e, c) listed

theorem readChars_append (spelled : SpellsChars s t) (rest : Text) : readChars (t ++ '"' :: rest) = some (s, rest) := by
  induction spelled with
  | nil => rfl
  | @cons c s t others first _ ih =>
    rw [List.append_assoc]
    cases first with
    | plain visible noQuote noBackslash =>
      have shown : ¬c < ' ' := by simpa using visible
      rw [List.singleton_append, readChars]
      · simp [shown, ih]
      · exact noQuote
      · rintro _ _ _ _ _ rfl
        exact absurd rfl noBackslash
      · rintro _ _ rfl
        exact absurd rfl noBackslash
    | @short e _ listed =>
      obtain ⟨apart, found⟩ := lookup_shortEscapes listed
      rw [List.cons_append, List.singleton_append, readChars]
      · simp [found, ih]
      · rintro _ _ _ _ _ rfl
        exact absurd rfl apart
    | code number => simp [readChars, number, ih]

theorem readNumeral_append (digits : Numeral n t) (ends : Ends rest) : readNumeral (t ++ rest) = some (n, rest) := by
  have taken : (t ++ rest).takeWhile Char.isDigit = t := by
    rw [List.takeWhile_append_of_pos digits.digits]
    cases rest with
    | nil => simp
    | cons c rest => simp [ends c rfl]
  have left : (t ++ rest).dropWhile Char.isDigit = rest := by
    rw [List.dropWhile_append_of_pos digits.digits]
    cases rest with
    | nil => rfl
    | cons c rest => exact List.dropWhile_cons_of_neg (by simp [ends c rfl])
  have proper : ¬(t = [] ∨ (t.head? = some '0' ∧ t ≠ ['0'])) := by
    rintro (empty | ⟨zero, longer⟩)
    · exact digits.full empty
    · exact longer (digits.shortest zero)
  simp only [readNumeral, taken, left, if_neg proper, digits.value]

theorem ne_of_isDigit {d : Char} (digit : c.isDigit = true) (other : d.isDigit = false) : c ≠ d := by
  rintro rfl
  rw [other] at digit
  cases digit

/-- The first digit of a number is told from all that begins or ends another value. -/
theorem Numeral.starts (digits : Numeral n t) : ∃ c rest, t = c :: rest ∧ c.isDigit = true := by
  obtain ⟨c, rest, rfl⟩ := List.exists_cons_of_ne_nil digits.full
  exact ⟨c, rest, rfl, digits.digits c List.mem_cons_self⟩

theorem opens_of_spells (spelled : Spells v t) : Opens t := by
  cases spelled with
  | number digits =>
    obtain ⟨c, rest, rfl, digit⟩ := digits.starts
    have visible : isSpace c = false := by
      simp [isSpace, ne_of_isDigit digit]
    have apart : ¬Closes c := by
      rintro (closing | closing)
      · exact ne_of_isDigit digit rfl closing
      · exact ne_of_isDigit digit rfl closing
    exact ⟨c, rest, rfl, visible, apart⟩
  | yes | no | negative | quoted | emptyList | list | emptyRecord | record =>
    exact ⟨_, _, rfl, rfl, by simp [Closes]⟩

theorem opens_of_field {f : String × Json} (spelled : Field Spells f t) : Opens t := by
  cases spelled
  exact ⟨_, _, rfl, rfl, by simp [Closes]⟩

theorem readField_append {readOne : Text → Option (Json × Text)} {f : String × Json}
    (reads : ∀ v t rest, Spells v t → t.length ≤ size → Ends rest → readOne (t ++ rest) = some (v, rest))
    (spelled : Field Spells f t) (short : t.length ≤ size) (ends : Ends rest) :
    readField readOne (t ++ rest) = some (f, rest) := by
  cases spelled with
  | @mk key v name left right t named before after spelled =>
    simp only [List.length_append, List.length_cons] at short
    have value := reads v t rest spelled (by omega) ends
    have colon := skipSpaces_append_cons before (rfl : isSpace ':' = false) (right ++ (t ++ rest))
    simp only [List.cons_append, List.append_assoc, readField, readChars_append named]
    simp [colon, skipSpaces_append after ((opens_of_spells spelled).stops rest), value]

section Members

variable {Spells : α → Text → Prop} {readOne : Text → Option (α × Text)} {as : List α}

/-- An empty list or record ends where it begins. -/
theorem readInside_empty (closes : Closes closing) (inside : Spaces t) (rest : Text) :
    readInside readOne closing bound (t ++ closing :: rest) = some ([], rest) := by
  simp [readInside, skipSpaces_append_cons inside closes.facts.1]

theorem skipSpaces_head_ne {left : Text} (closes : Closes closing) (before : Spaces left) (opens : Opens t)
    (rest : Text) : (skipSpaces (left ++ (t ++ rest))).head? ≠ some closing := by
  rw [skipSpaces_append before (opens.stops rest)]
  obtain ⟨c, others, rfl, -, apart⟩ := opens
  rintro ⟨⟩
  exact apart closes

/-- The first member is told from the bracket that would end an empty list or record. -/
theorem Members.head_ne (closes : Closes closing) (opens : ∀ a t, Spells a t → Opens t)
    (members : Members Spells as t) (rest : Text) : (skipSpaces (t ++ rest)).head? ≠ some closing := by
  cases members with
  | last before spelled _ =>
    simpa only [List.append_assoc] using skipSpaces_head_ne closes before (opens _ _ spelled) _
  | cons before spelled _ _ =>
    simpa only [List.append_assoc, List.cons_append] using skipSpaces_head_ne closes before (opens _ _ spelled) _

variable (closes : Closes closing) (opens : ∀ a t, Spells a t → Opens t)
  (reads : ∀ a t rest, Spells a t → t.length ≤ size → Ends rest → readOne (t ++ rest) = some (a, rest))
include closes opens reads

/-- Members are read up to the bracket, if each can be read whatever follows it. -/
theorem readMembers_append (members : Members Spells as t) (short : t.length ≤ size) (room : t.length < bound)
    (rest : Text) : readMembers readOne closing bound (t ++ closing :: rest) = some (as, rest) := by
  obtain ⟨visible, noComma, noDigit⟩ := closes.facts
  induction members generalizing bound with
  | @last a left t right before spelled after =>
    simp only [List.length_append] at short room
    obtain ⟨bound, rfl⟩ := Nat.exists_eq_add_one.mpr (Nat.zero_lt_of_lt room)
    have first := reads a t (right ++ closing :: rest) spelled (by omega) (ends_append after (ends_cons noDigit))
    have close := skipSpaces_append_cons after visible rest
    simp only [readMembers, List.append_assoc, skipSpaces_append before ((opens a t spelled).stops _)]
    simp [first, close]
  | @cons a as left t right others before spelled after _ ih =>
    simp only [List.length_append, List.length_cons] at short room
    obtain ⟨bound, rfl⟩ := Nat.exists_eq_add_one.mpr (Nat.zero_lt_of_lt room)
    have first := reads a t (right ++ ',' :: (others ++ closing :: rest)) spelled (by omega)
      (ends_append after (ends_cons rfl))
    have comma := skipSpaces_append_cons after (rfl : isSpace ',' = false) (others ++ closing :: rest)
    have later : readMembers readOne closing bound (others ++ closing :: rest) = some (as, rest) :=
      ih (by omega) (by omega)
    simp only [readMembers, List.append_assoc, List.cons_append,
      skipSpaces_append before ((opens a t spelled).stops _)]
    simp [first, comma, later, Ne.symm noComma]

theorem readInside_members (members : Members Spells as t) (short : t.length ≤ size) (room : t.length < bound)
    (rest : Text) : readInside readOne closing bound (t ++ closing :: rest) = some (as, rest) := by
  rw [readInside, if_neg (members.head_ne closes opens _)]
  exact readMembers_append closes opens reads members short room rest

end Members

/-- A value is read whatever follows it, if no number goes on there. -/
theorem readValue_append (spelled : Spells v t) (short : t.length ≤ size) (ends : Ends rest) :
    readValue size (t ++ rest) = some (v, rest) := by
  induction size generalizing v t rest with
  | zero =>
    obtain ⟨c, more, rfl, _⟩ := opens_of_spells spelled
    cases short
  | succ size ih =>
    have reads : ∀ v t rest, Spells v t → t.length ≤ size → Ends rest →
        readValue size (t ++ rest) = some (v, rest) := fun _ _ _ => ih
    cases spelled with
    | yes => rfl
    | no => rfl
    | number digits =>
      obtain ⟨c, more, rfl, digit⟩ := digits.starts
      rw [List.cons_append, readValue]
      · rw [← List.cons_append, readNumeral_append digits ends, Option.map_some]
      -- no other reading begins with a digit
      all_goals
        intros
        rename_i same
        injection same with first
        subst first
        cases digit
    | negative digits => simp [readValue, readNumeral_append digits ends]
    | quoted characters => simp [readValue, readChars_append characters]
    | emptyList inside => simp [readValue, readInside_empty (.inl rfl : Closes ']') inside]
    | emptyRecord inside => simp [readValue, readInside_empty (.inr rfl : Closes '\x7d') inside]
    | @list vs t items =>
      simp only [List.length_cons, List.length_append] at short
      have inside : readInside (readValue size) ']' (size + 1) (t ++ ']' :: rest) = some (vs, rest) :=
        readInside_members (.inl rfl) (fun _ _ => opens_of_spells) reads items (by omega) (by omega) rest
      simp [readValue, inside]
    | @record fields t members =>
      simp only [List.length_cons, List.length_append] at short
      have inside : readInside (readField (readValue size)) '\x7d' (size + 1) (t ++ '\x7d' :: rest) =
          some (fields, rest) :=
        readInside_members (.inr rfl) (fun _ _ => opens_of_field) (fun _ _ _ => readField_append reads) members
          (by omega) (by omega) rest
      simp [readValue, inside]

/-- Whatever writes a value is read as that value. -/
theorem read?_eq_some (written : Document v t) : read? t = some v := by
  cases written with
  | @mk left t right before spelled after =>
    have short : t.length ≤ (left ++ (t ++ right)).length := by
      simp only [List.length_append]
      omega
    have ends : Ends right := by simpa using ends_append after ends_nil
    have start := skipSpaces_append before ((opens_of_spells spelled).stops right)
    have value := readValue_append spelled short ends
    simp only [read?, start, value, Option.bind_eq_bind, Option.bind_some, skipSpaces_eq_nil after, if_true]

end SequenceDiagram.Json
