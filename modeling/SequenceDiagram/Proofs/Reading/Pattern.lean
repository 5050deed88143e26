import Mathlib.Computability.Language
import SequenceDiagram.Text.Pattern

/-! Patterns and languages. Which pieces a pattern leads past is a language, built as
the pattern is built (`Spells`). The order of the ways is what a language leaves out,
and it decides only where what follows could go on from several places. Where it can
go on from one place at most, the search ends there (`Spells.search_eq`). -/
namespace SequenceDiagram.Pattern
open scoped Computability

variable {α β : Type} {p q : Pattern} {L M : Language Char} {next : Place → Option α}
  {groups : List Text} {t : Text}

/-! ### The pieces that a pattern leads past -/

/-- The words of one character of a class. -/
def letters (p : Char → Bool) : Language Char := {piece | ∃ c, p c = true ∧ piece = [c]}

/-- The pattern leads past exactly the words of the language and remembers nothing. -/
def Spells (p : Pattern) (L : Language Char) : Prop :=
  ∀ start stop, stop ∈ p.ways start ↔
    stop.groups = start.groups ∧ ∃ piece ∈ L, start.rest = piece ++ stop.rest

theorem spells_one (p : Char → Bool) : (one p).Spells (letters p) := by
  rintro ⟨groups, t⟩ ⟨groups', rest⟩
  constructor
  · intro member
    cases t with
    | nil => cases member
    | cons c t =>
      simp only [ways] at member
      split at member
      · rename_i accepted
        cases List.mem_singleton.mp member
        exact ⟨rfl, [c], ⟨c, accepted, rfl⟩, rfl⟩
      · cases member
  · rintro ⟨rfl, _, ⟨c, accepted, rfl⟩, rfl⟩
    simp [ways, accepted]

theorem spells_empty : empty.Spells 1 := by
  rintro ⟨groups, t⟩ ⟨groups', rest⟩
  simp [ways, Language.mem_one, eq_comm]

theorem Spells.seq (first : p.Spells L) (second : q.Spells M) : (p.seq q).Spells (L * M) := by
  intro start stop
  rw [ways, List.mem_flatMap]
  constructor
  · rintro ⟨middle, reached, left⟩
    obtain ⟨same, a, a_mem, cut⟩ := (first start middle).mp reached
    obtain ⟨same', b, b_mem, cut'⟩ := (second middle stop).mp left
    refine ⟨same'.trans same, a ++ b, Language.append_mem_mul a_mem b_mem, ?_⟩
    rw [cut, cut', List.append_assoc]
  · rintro ⟨same, piece, piece_mem, cut⟩
    obtain ⟨a, a_mem, b, b_mem, rfl⟩ := Language.mem_mul.mp piece_mem
    have parts : start.rest = a ++ (b ++ stop.rest) := by rw [cut, List.append_assoc]
    exact ⟨⟨start.groups, b ++ stop.rest⟩, (first start _).mpr ⟨rfl, a, a_mem, parts⟩,
      (second _ stop).mpr ⟨same, b, b_mem, rfl⟩⟩

theorem Spells.either (left : p.Spells L) (right : q.Spells M) : (p.either q).Spells (L + M) := by
  intro start stop
  rw [ways, List.mem_append, left start stop, right start stop]
  constructor
  · rintro (⟨same, piece, member, cut⟩ | ⟨same, piece, member, cut⟩)
    · exact ⟨same, piece, .inl member, cut⟩
    · exact ⟨same, piece, .inr member, cut⟩
  · rintro ⟨same, piece, member | member, cut⟩
    · exact .inl ⟨same, piece, member, cut⟩
    · exact .inr ⟨same, piece, member, cut⟩

theorem append_mem_kstar {a b : Text} (first : a ∈ L) (more : b ∈ L∗) : a ++ b ∈ L∗ :=
  (mul_kstar_le_kstar : L * L∗ ≤ L∗) (Language.append_mem_mul first more)

theorem mem_rounds {ways : Place → List Place} {start stop : Place} :
    stop ∈ rounds ways start ↔ stop = start ∨
      ∃ middle ∈ ways start, middle.rest.length < start.rest.length ∧ stop ∈ rounds ways middle := by
  rw [rounds, List.mem_append, List.mem_singleton, List.mem_flatMap, or_comm]
  apply or_congr_right
  apply exists_congr
  intro middle
  split <;> simp [*]

theorem Spells.many (round : p.Spells L) (full : [] ∉ L) : (many p).Spells L∗ := by
  intro start stop
  rw [ways]
  constructor
  · intro member
    induction start using rounds.induct with
    | case1 start ih =>
      rcases mem_rounds.mp member with rfl | ⟨middle, reached, shorter, left⟩
      · exact ⟨rfl, [], Language.nil_mem_kstar L, rfl⟩
      · obtain ⟨same, a, a_mem, cut⟩ := (round start middle).mp reached
        obtain ⟨same', b, b_mem, cut'⟩ := ih middle shorter left
        exact ⟨same'.trans same, a ++ b, append_mem_kstar a_mem b_mem, by rw [cut, cut', List.append_assoc]⟩
  · rintro ⟨same, piece, member, cut⟩
    obtain ⟨pieces, rfl, all⟩ := Language.mem_kstar.mp member
    clear member
    -- one round a word: as no word is empty, each round gets on and so counts
    induction pieces generalizing start with
    | nil =>
      obtain ⟨groups, t⟩ := start
      obtain rfl : groups = stop.groups := same.symm
      obtain rfl : t = stop.rest := cut
      exact mem_rounds.mpr (.inl rfl)
    | cons a pieces ih =>
      refine mem_rounds.mpr (.inr ⟨⟨start.groups, pieces.flatten ++ stop.rest⟩, ?_, ?_, ?_⟩)
      · exact (round start _).mpr ⟨rfl, a, all a List.mem_cons_self, by simpa using cut⟩
      · have a_full : a ≠ [] := by
          rintro rfl
          exact full (all [] List.mem_cons_self)
        have a_long := List.length_pos_iff.mpr a_full
        simp only [cut, List.flatten_cons, List.length_append]
        omega
      · exact ih _ same (fun b b_mem => all b (List.mem_cons_of_mem _ b_mem)) rfl

theorem Spells.atLeastOne (round : p.Spells L) (full : [] ∉ L) : (atLeastOne p).Spells (L * L∗) :=
  round.seq (round.many full)

theorem Spells.optional (inner : p.Spells L) : (optional p).Spells (L + 1) := inner.either spells_empty

theorem Spells.of_iff (spells : p.Spells L) (same : ∀ piece, piece ∈ L ↔ piece ∈ M) : p.Spells M := by
  obtain rfl : L = M := Language.ext same
  exact spells

/-- The language of one text. -/
def exactly (word : Text) : Language Char := {piece | piece = word}

theorem spells_char (c : Char) : (char c).Spells (exactly [c]) :=
  (spells_one (· == c)).of_iff fun piece => by simp [letters, exactly]

theorem spells_literal (word : Text) : (literal word).Spells (exactly word) := by
  induction word with
  | nil => exact spells_empty
  | cons c word ih =>
    apply ((spells_char c).seq ih).of_iff
    rintro piece
    constructor
    · rintro ⟨_, rfl, _, rfl, rfl⟩
      rfl
    · rintro rfl
      exact ⟨_, rfl, _, rfl, rfl⟩

/-- Repeated letters are the words of the class. -/
theorem mem_kstar_letters {p : Char → Bool} {run : Text} : run ∈ (letters p)∗ ↔ ∀ c ∈ run, p c = true := by
  rw [Language.mem_kstar]
  constructor
  · rintro ⟨pieces, rfl, all⟩ c member
    obtain ⟨piece, piece_mem, c_mem⟩ := List.mem_flatten.mp member
    obtain ⟨letter, accepted, rfl⟩ := all piece piece_mem
    rwa [List.mem_singleton.mp c_mem]
  · intro inside
    refine ⟨run.map ([·]), by rw [← List.flatMap_def, List.flatMap_singleton'], fun piece member => ?_⟩
    obtain ⟨c, c_mem, rfl⟩ := List.mem_map.mp member
    exact ⟨c, inside c c_mem, rfl⟩

theorem nil_not_mem_letters {p : Char → Bool} : [] ∉ letters p := by
  rintro ⟨c, -, ⟨⟩⟩

theorem mem_letters_mul_kstar {p : Char → Bool} {run : Text} :
    run ∈ letters p * (letters p)∗ ↔ run ≠ [] ∧ ∀ c ∈ run, p c = true := by
  constructor
  · rintro ⟨_, ⟨c, accepted, rfl⟩, more, more_mem, rfl⟩
    exact ⟨List.cons_ne_nil c more, List.forall_mem_cons.mpr ⟨accepted, mem_kstar_letters.mp more_mem⟩⟩
  · rintro ⟨full, inside⟩
    cases run with
    | nil => exact absurd rfl full
    | cons c more =>
      obtain ⟨accepted, inside⟩ := List.forall_mem_cons.mp inside
      exact ⟨[c], ⟨c, accepted, rfl⟩, more, mem_kstar_letters.mpr inside, rfl⟩

/-! ### Where a search ends -/

/-- What comes of the first way that anything comes of. -/
def search (p : Pattern) (start : Place) (next : Place → Option α) : Option α := (p.ways start).findSome? next

theorem findSome?_flatMap {γ : Type} (l : List β) (f : β → List γ) (g : γ → Option α) :
    (l.flatMap f).findSome? g = l.findSome? fun x => (f x).findSome? g := by
  induction l with
  | nil => rfl
  | cons x l ih =>
    rw [List.flatMap_cons, List.findSome?_append, List.findSome?_cons, ih]
    cases (f x).findSome? g <;> rfl

theorem search_seq (start : Place) :
    (p.seq q).search start next = p.search start fun middle => q.search middle next :=
  findSome?_flatMap _ _ _

theorem search_group (start : Place) : (group p).search start next =
    p.search start fun stop => next { stop with groups := stop.groups ++ [start.between stop] } :=
  List.findSome?_map

theorem search_char (c : Char) (t : Text) : (char c).search ⟨groups, t⟩ next = match t with
    | [] => none
    | d :: rest => if d = c then next ⟨groups, rest⟩ else none := by
  cases t with
  | nil => rfl
  | cons d rest =>
    by_cases same : d = c <;> simp [search, ways, char, same]

/-- A search that begins with a character goes on only where that character stands. -/
theorem rest_of_search_char {c : Char} (goes : ((char c).seq q).search ⟨groups, t⟩ next ≠ none) :
    ∃ rest, t = c :: rest ∧ q.search ⟨groups, rest⟩ next ≠ none := by
  rw [search_seq, search_char] at goes
  cases t with
  | nil => exact absurd rfl goes
  | cons d rest =>
    by_cases same : d = c
    · subst same
      simp only [if_true] at goes
      exact ⟨rest, rfl, goes⟩
    · simp [same] at goes

theorem search_stop (t : Text) : stop.search ⟨groups, t⟩ next = if t = [] then next ⟨groups, t⟩ else none := by
  by_cases ended : t = [] <;> simp [search, ways, ended]

/-- The search goes on behind as many of the characters as it can. -/
theorem search_many_char (c : Char) (t : Text) : (many (char c)).search ⟨groups, t⟩ next = match t with
    | [] => next ⟨groups, []⟩
    | d :: rest => if d = c then ((many (char c)).search ⟨groups, rest⟩ next).or (next ⟨groups, d :: rest⟩)
        else next ⟨groups, d :: rest⟩ := by
  rw [search, ways, rounds]
  cases t with
  | nil => simp [char, ways]
  | cons d rest => by_cases same : d = c <;> simp [search, char, ways, same, List.findSome?_append]

theorem findSome?_of_unique {l : List β} {f : β → Option α} {x : β} (member : x ∈ l)
    (only : ∀ y ∈ l, f y ≠ none → y = x) : l.findSome? f = f x := by
  cases found : l.findSome? f with
  | none => exact (List.findSome?_eq_none_iff.mp found x member).symm
  | some a =>
    obtain ⟨y, y_mem, given⟩ := List.exists_of_findSome?_eq_some found
    have same := only y y_mem (by simp [given])
    rw [← same, given]

/-- Where the search can go on from one place only, it goes on from there. The place is
given by a function that finds it. -/
theorem Spells.search_eq (spells : p.Spells L) (taken : Option β) (following : β → Text)
    (sound : ∀ b, taken = some b → ∃ piece ∈ L, t = piece ++ following b)
    (complete : ∀ piece ∈ L, ∀ rest, t = piece ++ rest → next ⟨groups, rest⟩ ≠ none →
      ∃ b, taken = some b ∧ following b = rest) :
    p.search ⟨groups, t⟩ next = taken.bind fun b => next ⟨groups, following b⟩ := by
  have reached : ∀ stop ∈ p.ways ⟨groups, t⟩, next stop ≠ none →
      ∃ b, taken = some b ∧ stop = ⟨groups, following b⟩ := by
    rintro ⟨groups', rest⟩ member goes
    obtain ⟨rfl, piece, piece_mem, cut⟩ := (spells _ _).mp member
    obtain ⟨b, found, rfl⟩ := complete piece piece_mem rest cut goes
    exact ⟨b, found, rfl⟩
  cases taken with
  | none =>
    apply List.findSome?_eq_none_iff.mpr
    intro stop member
    by_contra goes
    obtain ⟨b, found, -⟩ := reached stop member goes
    cases found
  | some b =>
    apply findSome?_of_unique
    · exact (spells _ _).mpr ⟨rfl, sound b rfl⟩
    · intro stop member goes
      obtain ⟨_, ⟨⟩, same⟩ := reached stop member goes
      exact same

theorem between_append (piece rest : Text) (groups groups' : List Text) :
    Place.between ⟨groups, piece ++ rest⟩ ⟨groups', rest⟩ = piece := by
  simp [Place.between]

/-- The same with the piece remembered. -/
theorem Spells.search_group_eq (spells : p.Spells L) (taken : Option β) (piece following : β → Text)
    (sound : ∀ b, taken = some b → piece b ∈ L ∧ t = piece b ++ following b)
    (complete : ∀ word ∈ L, ∀ rest, t = word ++ rest → next ⟨groups ++ [word], rest⟩ ≠ none →
      ∃ b, taken = some b ∧ following b = rest) :
    (group p).search ⟨groups, t⟩ next = taken.bind fun b => next ⟨groups ++ [piece b], following b⟩ := by
  rw [search_group, spells.search_eq taken following]
  · apply Option.bind_congr
    intro b found
    rw [(sound b found).2, between_append]
  · exact fun b found => ⟨piece b, sound b found⟩
  · intro word word_mem rest cut goes
    rw [cut, between_append] at goes
    exact complete word word_mem rest cut goes

/-- The groups at the end of the first match from here on. -/
def completion (p : Pattern) (groups : List Text) (t : Text) : Option (List Text) :=
  p.search ⟨groups, t⟩ (some ∘ Place.groups)

theorem match?_eq (p : Pattern) (t : Text) : p.match? t = p.completion [] t := by
  unfold match? completion search
  cases p.ways ⟨[], t⟩ <;> rfl

end SequenceDiagram.Pattern
