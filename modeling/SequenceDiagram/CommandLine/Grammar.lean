import Mathlib.Data.Nat.Digits.Defs
import SequenceDiagram.CommandLine.Options

/-!
The command lines that are options: lists of arguments put together from pieces of one argument or two,
each of which spells a unit, with no kind of unit twice and no two that contradict each other. Nothing
here says how the pieces are found.
-/

namespace SequenceDiagram.CommandLine

/-- Decimal digits for a number of columns that there can be. -/
structure Writes (digits : Text) (columns : Nat) : Prop where
  full : digits ≠ []
  decimal : ∀ c ∈ digits, '0' ≤ c ∧ c ≤ '9'
  value : Nat.ofDigits 10 (digits.reverse.map fun c => c.toNat - '0'.toNat) = columns
  positive : 1 ≤ columns
  bounded : columns ≤ 2 ^ 64 - 1

namespace Argument

/-- The arguments that spell a unit. A file is named by a lone dash or by anything that does not begin
with one, the empty text included. -/
inductive Spells : List Text → Argument → Prop where
  | json : Spells ["--json".toList] .json
  | editor : Spells ["--tui".toList] .editor
  | width {digits : Text} {columns : Nat} (written : Writes digits columns) :
    Spells ["--width".toList, digits] (.width columns)
  | widthPlus {digits : Text} {columns : Nat} (written : Writes digits columns) :
    Spells ["--width".toList, '+' :: digits] (.width columns)
  | standardInput : Spells [['-']] (.file ['-'])
  | file {path : Text} (named : path.head? ≠ some '-') : Spells [path] (.file path)

/-- What a unit is about. -/
inductive Kind where
  | json
  | editor
  | width
  | file
deriving DecidableEq, Repr

def kind : Argument → Kind
  | .json => .json
  | .editor => .editor
  | .width _ => .width
  | .file _ => .file

/-- Units that can stand together: no kind comes twice, and the editor, which neither prints nor leaves
standard input to others, comes with a file from elsewhere at most. -/
structure Agree (units : List Argument) : Prop where
  once : (units.map kind).Nodup
  editing : .editor ∈ units → .json ∉ units ∧ (∀ columns, .width columns ∉ units) ∧ .file ['-'] ∉ units

end Argument

/-- Options that say what some units say and nothing else. -/
structure Options.Holds (o : Options) (units : List Argument) : Prop where
  file : ∀ path, o.file = some path ↔ .file path ∈ units
  json : o.json = true ↔ .json ∈ units
  width : ∀ columns, o.width = some columns ↔ .width columns ∈ units
  editor : o.editor = true ↔ .editor ∈ units

end SequenceDiagram.CommandLine
