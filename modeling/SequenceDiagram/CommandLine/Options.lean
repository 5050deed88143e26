import SequenceDiagram.Text.Basic

/-!
The options of the command line. The arguments are cut into units from the left, each unit one
argument or, for a width, two; then the units are put together. They may come in any order, each kind
at most once, and the editor goes with a file only.

The options can also be taken one by one. Whoever goes through the arguments like this keeps what has
been asked for so far, refuses what is asked for a second time on the spot, lets an option swallow the
argument behind it, and sees only at the end whether everything goes together.
-/

namespace SequenceDiagram

namespace CommandLine

/-- One unit of the command line. -/
inductive Argument where
  /-- Asks for the layout as data. -/
  | json
  /-- Asks for the editor. -/
  | editor
  /-- Sets the width of the page. -/
  | width (columns : Nat)
  /-- Names the file to read; a lone dash stands for standard input. -/
  | file (path : Text)
deriving DecidableEq, Repr

/-- What the command line asks for. -/
structure Options where
  file : Option Text := none
  json : Bool := false
  width : Option Nat := none
  editor : Bool := false
deriving DecidableEq, Repr

/-- The number that decimal digits write. -/
def ofDigits (digits : Text) : Nat := digits.foldl (fun n c => 10 * n + (c.toNat - '0'.toNat)) 0

/-- The greatest width, one less than 2⁶⁴. -/
def maxWidth : Nat := 0xFFFFFFFFFFFFFFFF

/-- The width that an argument writes: decimal digits, with a plus sign in front if one likes, for a
number that is neither zero nor too great. -/
def width? (t : Text) : Option Nat :=
  let digits := match t with
    | '+' :: digits => digits
    | digits => digits
  if digits.isEmpty || !digits.all Char.isDigit then none
  else
    let n := ofDigits digits
    if 0 < n ∧ n ≤ maxWidth then some n else none

namespace Argument

/-- The unit that a single argument writes. Other than a lone dash, what begins with a dash is none. -/
def ofSingle? (t : Text) : Option Argument :=
  if t = "--json".toList then some .json
  else if t = "--tui".toList then some .editor
  else if t = ['-'] then some (.file t)
  else if t.head? = some '-' then none
  else some (.file t)

/-- Cuts the command line into units, if it consists of nothing else. -/
def cut? : List Text → Option (List Argument)
  | [] => some []
  | t :: ts =>
    if t = "--width".toList then
      match ts with
      | [] => none
      | value :: ts => do
        let columns ← width? value
        return .width columns :: (← cut? ts)
    else do
      let unit ← ofSingle? t
      return unit :: (← cut? ts)

/-- The path in a unit that names a file. -/
def file? : Argument → Option Text
  | file path => some path
  | _ => none

/-- The columns in a unit that sets the width. -/
def columns? : Argument → Option Nat
  | width columns => some columns
  | _ => none

end Argument

namespace Options

/-- The options that units add up to, if no kind of unit comes twice and they go together. -/
def ofArguments? (units : List Argument) : Option Options :=
  let files := units.filterMap Argument.file?
  let widths := units.filterMap Argument.columns?
  let o : Options :=
    { file := files.head?, json := units.contains .json, width := widths.head?,
      editor := units.contains .editor }
  if files.length ≤ 1 ∧ widths.length ≤ 1 ∧ units.count .json ≤ 1 ∧ units.count .editor ≤ 1 ∧
      ¬(o.editor ∧ (o.json ∨ o.width.isSome ∨ o.file = some ['-'])) then some o
  else none

/-- The options of a command line. -/
def parse? (args : List Text) : Option Options := (Argument.cut? args).bind ofArguments?

/-! ### One by one -/

/-- The options with one more unit, unless they have one of its kind. -/
def add? (o : Options) : Argument → Option Options
  | .json => if o.json then none else some { o with json := true }
  | .editor => if o.editor then none else some { o with editor := true }
  | .width columns => if o.width.isSome then none else some { o with width := some columns }
  | .file path => if o.file.isSome then none else some { o with file := some path }

/-- Takes the arguments from the left. -/
def take? (o : Options) : List Text → Option Options
  | [] => some o
  | arg :: args =>
    if arg = "--json".toList then do take? (← o.add? .json) args
    else if arg = "--tui".toList then do take? (← o.add? .editor) args
    else if arg = "--width".toList then
      if o.width.isSome then none
      else match args with
        | [] => none
        | value :: args => do take? (← o.add? (.width (← width? value))) args
    else if arg = ['-'] then do take? (← o.add? (.file arg)) args
    else if arg.head? = some '-' then none
    else do take? (← o.add? (.file arg)) args

/-- The editor sizes itself and prints nothing, and it needs standard input for its keys. -/
def fits (o : Options) : Bool :=
  !(o.editor && (o.json || o.width.isSome)) && !(o.editor && o.file == some ['-'])

/-- The options of a command line, its arguments taken one by one. -/
def takeAll? (args : List Text) : Option Options := (take? {} args).filter fits

end Options

end CommandLine

end SequenceDiagram
