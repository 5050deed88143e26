import Mathlib.Data.List.Forall2
import SequenceDiagram.Proofs.Export.Reading

/-! The indented form of a value is well formed: its lines, escapes and digits are among
the ways in which the grammar writes that value. -/
namespace SequenceDiagram.Json

variable {α : Type} {c : Char} {t : Text} {n : Nat}

/-! ### Characters -/

theorem hexDigit?_digitChar : ∀ n < 16, hexDigit? n.digitChar = some n := by decide

theorem charOfCode?_control (low : c < ' ') :
    charOfCode? '0' '0' (c.toNat / 16).digitChar (c.toNat % 16).digitChar = some c := by
  have small : c.toNat < 32 := low
  have high := hexDigit?_digitChar (c.toNat / 16) (by omega)
  have rest := hexDigit?_digitChar (c.toNat % 16) (by omega)
  have same : 16 * (c.toNat / 16) + c.toNat % 16 = c.toNat := by omega
  have valid : c.toNat.isValidChar := c.valid
  simp [charOfCode?, show hexDigit? '0' = some 0 from rfl, high, rest, same, valid]

theorem spellsChar_escape (c : Char) : SpellsChar c (escape c) := by
  unfold escape
  split
  case h_8 noQuote noBackslash _ _ _ _ _ =>
    by_cases low : c < ' '
    · rw [if_pos low]
      exact .code (charOfCode?_control low)
    · rw [if_neg low]
      exact .plain (by simpa using low) noQuote noBackslash
  all_goals exact .short (by decide)

theorem spellsChars_escape (s : Text) : SpellsChars s (s.flatMap escape) := by
  induction s with
  | nil => exact .nil
  | cons c s ih => exact .cons (spellsChar_escape c) ih

/-! ### Numbers -/

/-- Only zero itself begins with the digit zero. -/
theorem toDigits_of_head (n : Nat) (zero : (Nat.toDigits 10 n).head? = some '0') : Nat.toDigits 10 n = ['0'] := by
  induction n using Nat.strong_induction_on with
  | _ n ih =>
    by_cases single : n < 10
    · rw [Nat.toDigits_of_lt_base single] at zero ⊢
      simpa using zero
    · have several : 10 ≤ n := by omega
      have start : (Nat.toDigits 10 (n / 10)).head? = some '0' := by
        rw [Nat.toDigits_of_base_le (by decide) several, List.head?_append] at zero
        have full : Nat.toDigits 10 (n / 10) ≠ [] := Nat.toDigits_ne_nil
        obtain ⟨c, more, digits⟩ := List.exists_cons_of_ne_nil full
        simpa [digits] using zero
      have value : Nat.ofDigitChars 10 (Nat.toDigits 10 (n / 10)) 0 = n / 10 :=
        Nat.ofDigitChars_toDigits (by decide) (by decide)
      rw [ih (n / 10) (by omega) start] at value
      have none_left : n / 10 = 0 := value.symm
      omega

theorem numeral_toDigits (n : Nat) : Numeral n (Nat.toDigits 10 n) where
  full := Nat.toDigits_ne_nil
  digits _ := Nat.isDigit_of_mem_toDigits (by decide) (by decide)
  shortest := toDigits_of_head n
  value := Nat.ofDigitChars_toDigits (by decide) (by decide)

theorem spells_toString (z : Int) : Spells (.num z) (toString z).toList := by
  cases z with
  | ofNat n =>
    have digits : (toString (Int.ofNat n)).toList = Nat.toDigits 10 n := Nat.toList_repr
    rw [digits]
    exact .number (numeral_toDigits n)
  | negSucc n =>
    have digits : (toString (Int.negSucc n)).toList = '-' :: Nat.toDigits 10 (n + 1) := by
      rw [← Nat.toList_repr]
      exact String.toList_append
    rw [digits]
    exact .negative (numeral_toDigits (n + 1))

/-! ### Lists and records -/

theorem spaces_nil : Spaces [] := by simp [Spaces]

/-- Members on lines of their own, each text after the spaces that begin its line. -/
theorem members_intercalate {Spells : α → Text → Prop} {as : List α} {ts : List Text} {start finish : Text}
    (indent : Spaces start) (close : Spaces finish) (some_member : as ≠ []) (spelled : List.Forall₂ Spells as ts) :
    Members Spells as ([','].intercalate (ts.map (start ++ ·)) ++ finish) := by
  induction spelled with
  | nil => exact absurd rfl some_member
  | @cons a t as ts first others ih =>
    cases others with
    | nil =>
      simp only [List.map_cons, List.map_nil, List.intercalate_singleton, List.append_assoc]
      exact .last indent first close
    | cons second others =>
      have rest := ih (List.cons_ne_nil _ _)
      simpa [List.intercalate_cons_cons] using Members.cons indent first spaces_nil rest

theorem spaces_newline (depth : Nat) : Spaces (newline depth) := by
  intro c inside
  rw [newline, List.mem_cons, List.mem_replicate] at inside
  rcases inside with rfl | ⟨-, rfl⟩ <;> rfl

/-- The inside of a list or record that has members. -/
theorem members_cons (depth : Nat) (opening closing : Char) {ts : List Text} (full : ts ≠ []) :
    members depth opening closing ts =
      opening :: ([','].intercalate (ts.map (newline (depth + 1) ++ ·)) ++ newline depth ++ [closing]) := by
  cases ts with
  | nil => exact absurd rfl full
  | cons t ts => rfl

theorem spells_arr {vs : List Json} {ts : List Text} (depth : Nat) (spelled : List.Forall₂ Spells vs ts) :
    Spells (.arr vs) (members depth '[' ']' ts) := by
  cases spelled with
  | nil => exact .emptyList spaces_nil
  | cons first others =>
    rw [members_cons depth '[' ']' (List.cons_ne_nil _ _)]
    exact .list (members_intercalate (spaces_newline _) (spaces_newline _) (List.cons_ne_nil _ _) (.cons first others))

theorem spells_obj {fields : List (String × Json)} {ts : List Text} (depth : Nat)
    (spelled : List.Forall₂ (Field Spells) fields ts) : Spells (.obj fields) (members depth '\x7b' '\x7d' ts) := by
  cases spelled with
  | nil => exact .emptyRecord spaces_nil
  | cons first others =>
    rw [members_cons depth '\x7b' '\x7d' (List.cons_ne_nil _ _)]
    exact .record
      (members_intercalate (spaces_newline _) (spaces_newline _) (List.cons_ne_nil _ _) (.cons first others))

theorem spells_field {v : Json} (key : String) (spelled : Spells v t) :
    Field Spells (key, v) (quote key.toList ++ ':' :: ' ' :: t) := by
  have one_space : Spaces [' '] := by simp [Spaces, isSpace]
  simpa [quote] using Field.mk (spellsChars_escape key.toList) spaces_nil one_space spelled

/-! ### Values -/

mutual

theorem spells_write (depth : Nat) : ∀ v, Spells v (write depth v)
  | bool true => .yes
  | bool false => .no
  | num z => spells_toString z
  | str s => .quoted (spellsChars_escape s)
  | arr vs => spells_arr depth (spells_writeItems (depth + 1) vs)
  | obj fields => spells_obj depth (spells_writeFields (depth + 1) fields)

theorem spells_writeItems (depth : Nat) : ∀ vs, List.Forall₂ Spells vs (writeItems depth vs)
  | [] => .nil
  | v :: vs => .cons (spells_write depth v) (spells_writeItems depth vs)

theorem spells_writeFields (depth : Nat) : ∀ fields, List.Forall₂ (Field Spells) fields (writeFields depth fields)
  | [] => .nil
  | (key, v) :: fields => .cons (spells_field key (spells_write depth v)) (spells_writeFields depth fields)

end

theorem document_pretty (v : Json) : Document v v.pretty := by
  simpa [pretty] using Document.mk spaces_nil (spells_write 0 v) spaces_nil

end SequenceDiagram.Json
