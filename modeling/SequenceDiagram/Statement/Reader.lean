import SequenceDiagram.Statement.Basic

/-!
Reading a line as a statement. Every step takes the longest piece it can and never has to take a
shorter one: what follows an actor token is a slash, a blank, an arrow or a colon, and the only of
these that belongs to a token's characters is the single blank in front of the arrow.
-/

namespace SequenceDiagram.Statement

/-- The slash at the start of a text, if there is one, and what follows. -/
def takeSlash : Text → Text × Text
  | '/' :: rest => (['/'], rest)
  | rest => ([], rest)

/-- The longest actor token at the start of a text, and what follows. -/
def takeToken? (t : Text) : Option (Text × Text) :=
  let (opening, named) := takeSlash t
  match named with
  | [] => none
  | first :: more =>
    if isWordChar first then
      let name := first :: more.takeWhile isNameChar
      let (closing, rest) := takeSlash (more.dropWhile isNameChar)
      some (opening ++ name ++ closing, rest)
    else none

/-- The token in front of an arrow, and the text from the arrow on. One blank parts the two; where
the token ends in blanks, the last of them is that blank. -/
def takeSource? (t : Text) : Option (Text × Text) :=
  match takeToken? t with
  | none => none
  | some (token, rest) =>
    if token.getLast? = some ' ' then some (token.dropLast, rest)
    else match rest with
      | ' ' :: rest => some (token, rest)
      | _ => none

/-- The arrow at the start of a text, and what follows. -/
def takeArrow? : Text → Option (Arrow × Text)
  | a :: b :: rest => (Arrow.ofToken? [a, b]).map (·, rest)
  | _ => none

/-- What follows one or more blanks. -/
def skipBlanks? : Text → Option Text
  | ' ' :: rest => some (rest.dropWhile (· == ' '))
  | _ => none

/-- The label at the end of a line, from what follows the colon. -/
def takeLabel? (t : Text) : Option Text :=
  match skipBlanks? t with
  | none => none
  | some [] => if 2 ≤ t.length then some [' '] else none
  | some label => if '\n' ∈ label then none else some label

/-- The statement that a line writes, or `none` for a line that writes none. -/
def read? (line : Text) : Option Statement := do
  let (source, line) ← takeSource? line
  let (arrow, line) ← takeArrow? line
  let line ← skipBlanks? line
  let (target, line) ← takeToken? line
  match line with
  | ':' :: line =>
    let label ← takeLabel? line
    pure { source, arrow, target, label }
  | _ => none

example : read? "/Web Server  <= Client/:  200 OK ".toList =
    some ⟨"/Web Server ".toList, ⟨.thick, true⟩, "Client/".toList, "200 OK ".toList⟩ := by decide

example : read? "A -> B:  ".toList = some ⟨['A'], ⟨.thin, false⟩, ['B'], [' ']⟩ := by decide

example : read? "A -> B: ".toList = none := by decide

end SequenceDiagram.Statement
