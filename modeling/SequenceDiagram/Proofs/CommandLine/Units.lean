import Mathlib.Data.List.Induction
import Mathlib.Data.Nat.Digits.Defs
import SequenceDiagram.CommandLine.Grammar

/-! Units from arguments. How many arguments a unit takes can be seen from the first of
them, so a command line is cut in one way at most, and the cut finds it. A width is read
as the digits write it. -/
namespace SequenceDiagram.CommandLine

variable {t digits : Text} {args piece other : List Text} {pieces others : List (List Text)}
  {units more : List Argument} {u : Argument} {columns : Nat}

/-! ### Widths -/

theorem isDigit_iff {c : Char} : c.isDigit = true ↔ '0' ≤ c ∧ c ≤ '9' := by
  simp [Char.isDigit, Char.le_def]

theorem ofDigits_eq (digits : Text) :
    ofDigits digits = Nat.ofDigits 10 (digits.reverse.map fun c => c.toNat - '0'.toNat) := by
  induction digits using List.reverseRecOn with
  | nil => rfl
  | append_singleton digits c ih =>
    rw [List.reverse_append, List.reverse_singleton, List.singleton_append, List.map_cons, Nat.ofDigits_cons, ← ih,
      ofDigits, List.foldl_append, Nat.add_comm]
    rfl

theorem writes_iff : Writes digits columns ↔
    (if digits.isEmpty || !digits.all Char.isDigit then none
      else if 0 < ofDigits digits ∧ ofDigits digits ≤ maxWidth then some (ofDigits digits) else none) =
        some columns := by
  constructor
  · rintro ⟨full, decimal, value, positive, bounded⟩
    have all : digits.all Char.isDigit = true := List.all_eq_true.mpr fun c member => isDigit_iff.mpr (decimal c member)
    rw [← ofDigits_eq] at value
    rw [all, List.isEmpty_eq_false_iff.mpr full, if_neg (by decide), value, if_pos ⟨positive, bounded⟩]
  · intro read
    split at read
    · cases read
    · rename_i sound
      rw [Bool.or_eq_true, not_or, List.isEmpty_iff, Bool.not_eq_true', Bool.not_eq_false] at sound
      split at read
      · rename_i inside
        cases read
        refine ⟨sound.1, fun c member => isDigit_iff.mp (List.all_eq_true.mp sound.2 c member), ?_, inside.1, inside.2⟩
        rw [ofDigits_eq]
      · cases read

theorem width?_eq_some_iff : width? t = some columns ↔
    Writes t columns ∨ ∃ digits, t = '+' :: digits ∧ Writes digits columns := by
  unfold width?
  split
  · rename_i digits
    have signed : ¬Writes ('+' :: digits) columns := fun written =>
      absurd (written.decimal '+' List.mem_cons_self) (by decide)
    rw [← writes_iff]
    simp [signed]
  · rename_i bare
    rw [← writes_iff, iff_self_or]
    rintro ⟨digits, plus, _⟩
    exact absurd plus (bare digits)

/-! ### Cutting -/

namespace Argument

theorem Spells.length_eq (spelled : Spells piece u) (also : Spells other u) : piece.length = other.length := by
  cases spelled <;> cases also <;> rfl

theorem ofSingle?_eq_some_iff : ofSingle? t = some u ↔ Spells [t] u := by
  constructor
  · intro single
    unfold ofSingle? at single
    split at single
    · rename_i same
      cases single
      exact same ▸ .json
    · split at single
      · rename_i same
        cases single
        exact same ▸ .editor
      · split at single
        · rename_i same
          cases single
          exact same ▸ .standardInput
        · split at single
          · cases single
          · rename_i named
            cases single
            exact .file named
  · intro spelled
    cases spelled with
    | json | editor | standardInput => rfl
    | file named =>
      have dashed {s : Text} (dash : s.head? = some '-') : t ≠ s := fun same => named (same ▸ dash)
      rw [ofSingle?, if_neg (dashed rfl), if_neg (dashed rfl), if_neg (dashed rfl), if_neg named]

theorem cut?_width (value : Text) (rest : List Text) : cut? ("--width".toList :: value :: rest) =
    (width? value).bind fun columns => (cut? rest).map (.width columns :: ·) := by
  rw [cut?, if_pos rfl]
  cases width? value with
  | none => rfl
  | some columns => cases cut? rest <;> rfl

theorem cut?_single (other : t ≠ "--width".toList) (rest : List Text) :
    cut? (t :: rest) = (ofSingle? t).bind fun u => (cut? rest).map (u :: ·) := by
  rw [cut?.eq_def (t :: rest)]
  dsimp only
  rw [if_neg other]
  cases ofSingle? t with
  | none => rfl
  | some u => cases cut? rest <;> rfl

/-- A piece in front of other arguments is cut off as the unit that it spells. -/
theorem cut?_append (spelled : Spells piece u) (rest : List Text) :
    cut? (piece ++ rest) = (cut? rest).map (u :: ·) := by
  have single {t : Text} (spelled : Spells [t] u) : cut? (t :: rest) = (cut? rest).map (u :: ·) := by
    have read := ofSingle?_eq_some_iff.mpr spelled
    have other : t ≠ "--width".toList := by
      rintro rfl
      cases read
    rw [cut?_single other, read, Option.bind_some]
  cases spelled with
  | json => exact single .json
  | editor => exact single .editor
  | standardInput => exact single .standardInput
  | file named => exact single (.file named)
  | width written => exact (cut?_width _ rest).trans (by rw [width?_eq_some_iff.mpr (.inl written), Option.bind_some])
  | widthPlus written =>
    exact (cut?_width _ rest).trans (by rw [width?_eq_some_iff.mpr (.inr ⟨_, rfl, written⟩), Option.bind_some])

/-- A command line is cut exactly where its pieces spell units. -/
theorem cut?_eq_some_iff : cut? args = some units ↔
    ∃ pieces, args = pieces.flatten ∧ List.Forall₂ Spells pieces units := by
  constructor
  · intro done
    induction args using cut?.induct generalizing units with
    | case1 =>
      cases done
      exact ⟨[], rfl, .nil⟩
    | case2 => cases done
    | case3 value args ih =>
      rw [cut?_width] at done
      obtain ⟨columns, read, done⟩ := Option.bind_eq_some_iff.mp done
      obtain ⟨units, cut, rfl⟩ := Option.map_eq_some_iff.mp done
      obtain ⟨pieces, rfl, spelled⟩ := ih cut
      have first : Spells ["--width".toList, value] (.width columns) := by
        rcases width?_eq_some_iff.mp read with written | ⟨digits, rfl, written⟩
        · exact .width written
        · exact .widthPlus written
      exact ⟨_ :: pieces, rfl, .cons first spelled⟩
    | case4 t args other ih =>
      rw [cut?_single other] at done
      obtain ⟨u, single, done⟩ := Option.bind_eq_some_iff.mp done
      obtain ⟨units, cut, rfl⟩ := Option.map_eq_some_iff.mp done
      obtain ⟨pieces, rfl, spelled⟩ := ih cut
      exact ⟨[t] :: pieces, rfl, .cons (ofSingle?_eq_some_iff.mp single) spelled⟩
  · rintro ⟨pieces, rfl, spelled⟩
    induction spelled with
    | nil => rfl
    | cons first _ ih => rw [List.flatten_cons, cut?_append first, ih, Option.map_some]

theorem pieces_unique (first : List.Forall₂ Spells pieces units) (second : List.Forall₂ Spells others units)
    (same : pieces.flatten = others.flatten) : pieces = others := by
  induction first generalizing others with
  | nil =>
    cases second
    rfl
  | cons spelled _ ih =>
    cases second with
    | cons also second =>
      rw [List.flatten_cons, List.flatten_cons] at same
      obtain ⟨head, tail⟩ := List.append_inj same (spelled.length_eq also)
      rw [head, ih second tail]

/-- There is one way to cut a command line at most. -/
theorem cut_unique (first : List.Forall₂ Spells pieces units) (second : List.Forall₂ Spells others more)
    (same : pieces.flatten = others.flatten) : pieces = others ∧ units = more := by
  have cut := cut?_eq_some_iff.mpr ⟨pieces, rfl, first⟩
  rw [same, cut?_eq_some_iff.mpr ⟨others, rfl, second⟩] at cut
  cases cut
  exact ⟨pieces_unique first second same, rfl⟩

end Argument

end SequenceDiagram.CommandLine
