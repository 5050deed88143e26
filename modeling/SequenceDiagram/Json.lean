import SequenceDiagram.Text.Basic

/-!
Structured data and its written form. The form is the indented one: every member of a list or record
stands on a line of its own, two spaces further in than the bracket that opens it, and an empty list
or record is the two brackets alone.
-/

namespace SequenceDiagram

/-- A value of the data format. Records keep the order of their fields. -/
inductive Json where
  | bool (b : Bool)
  | num (n : Int)
  | str (t : Text)
  | arr (items : List Json)
  | obj (fields : List (String × Json))

namespace Json

/-- How a character stands in a quoted text. Quotation marks, backslashes and the characters below the
space are escaped; all others stand for themselves. -/
def escape (c : Char) : Text :=
  match c with
  | '"' => ['\\', '"']
  | '\\' => ['\\', '\\']
  | '\x08' => ['\\', 'b']
  | '\x0c' => ['\\', 'f']
  | '\n' => ['\\', 'n']
  | '\r' => ['\\', 'r']
  | '\t' => ['\\', 't']
  | c =>
    if c < ' ' then ['\\', 'u', '0', '0', (c.toNat / 16).digitChar, (c.toNat % 16).digitChar] else [c]

/-- A text between quotation marks. -/
def quote (t : Text) : Text := '"' :: t.flatMap escape ++ ['"']

/-- The start of a new line at a depth. -/
def newline (depth : Nat) : Text := '\n' :: List.replicate (2 * depth) ' '

/-- The members of a list or record, each on its line and with a comma between each two. -/
def members (depth : Nat) (opening closing : Char) : List Text → Text
  | [] => [opening, closing]
  | ts => opening :: [','].intercalate (ts.map (newline (depth + 1) ++ ·)) ++ newline depth ++ [closing]

mutual

/-- The written form of a value whose first line stands at a depth. -/
def write (depth : Nat) : Json → Text
  | bool b => (toString b).toList
  | num n => (toString n).toList
  | str t => quote t
  | arr items => members depth '[' ']' (writeItems (depth + 1) items)
  | obj fields => members depth '\x7b' '\x7d' (writeFields (depth + 1) fields)

/-- The written forms of the items of a list. -/
def writeItems (depth : Nat) : List Json → List Text
  | [] => []
  | v :: vs => write depth v :: writeItems depth vs

/-- The written forms of the fields of a record. -/
def writeFields (depth : Nat) : List (String × Json) → List Text
  | [] => []
  | (key, v) :: fields => (quote key.toList ++ ':' :: ' ' :: write depth v) :: writeFields depth fields

end

/-- The whole text of a value. -/
def pretty (v : Json) : Text := v.write 0

end Json

end SequenceDiagram
