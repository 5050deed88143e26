import SequenceDiagram.Json

/-!
The grammar of the data format: which texts write a value. There may be any number of spaces between
the parts of a value, a character within quotation marks may be escaped where it need not be, and no
number has a zero in front. A text that writes some value is well formed; the indented form is one of
many that write the same.
-/

namespace SequenceDiagram.Json

/-- The characters that may stand between the parts of a value. -/
def isSpace (c : Char) : Bool := c == ' ' || c == '\n' || c == '\r' || c == '\t'

def Spaces (t : Text) : Prop := ∀ c ∈ t, isSpace c = true

/-- The characters that may follow a backslash, each with the one that it stands for. -/
def shortEscapes : List (Char × Char) :=
  [('"', '"'), ('\\', '\\'), ('/', '/'), ('b', '\x08'), ('f', '\x0c'), ('n', '\n'), ('r', '\r'), ('t', '\t')]

/-- The value of a hexadecimal digit, with letters in either case. -/
def hexDigit? (c : Char) : Option Nat :=
  if '0' ≤ c ∧ c ≤ '9' then some (c.toNat - '0'.toNat)
  else if 'a' ≤ c ∧ c ≤ 'f' then some (10 + (c.toNat - 'a'.toNat))
  else if 'A' ≤ c ∧ c ≤ 'F' then some (10 + (c.toNat - 'A'.toNat))
  else none

/-- The character with the number that four hexadecimal digits write, if it is the number of one. -/
def charOfCode? (a b c d : Char) : Option Char := do
  let number := 16 * (16 * (16 * (← hexDigit? a) + (← hexDigit? b)) + (← hexDigit? c)) + (← hexDigit? d)
  if number.isValidChar then some (Char.ofNat number) else none

/-- The ways to write a character within quotation marks. -/
inductive SpellsChar : Char → Text → Prop
  | plain {c : Char} (visible : ' ' ≤ c) (noQuote : c ≠ '"') (noBackslash : c ≠ '\\') : SpellsChar c [c]
  | short {e c : Char} (listed : (e, c) ∈ shortEscapes) : SpellsChar c ['\\', e]
  | code {a b c d ch : Char} (number : charOfCode? a b c d = some ch) : SpellsChar ch ['\\', 'u', a, b, c, d]

/-- The ways to write a text within quotation marks, one character after the other. -/
inductive SpellsChars : Text → Text → Prop
  | nil : SpellsChars [] []
  | cons {c : Char} {s t rest : Text} (first : SpellsChar c t) (others : SpellsChars s rest) :
    SpellsChars (c :: s) (t ++ rest)

/-- The decimal digits of a number, without a zero in front. -/
structure Numeral (n : Nat) (t : Text) : Prop where
  full : t ≠ []
  digits : ∀ c ∈ t, c.isDigit = true
  shortest : t.head? = some '0' → t = ['0']
  value : Nat.ofDigitChars 10 t 0 = n

/-- The members of a list or record, one at least, with a comma between each two and spaces around. -/
inductive Members {α : Type} (Spells : α → Text → Prop) : List α → Text → Prop
  | last {a : α} {left t right : Text} (before : Spaces left) (spelled : Spells a t) (after : Spaces right) :
    Members Spells [a] (left ++ (t ++ right))
  | cons {a : α} {as : List α} {left t right rest : Text} (before : Spaces left) (spelled : Spells a t)
    (after : Spaces right) (others : Members Spells as rest) :
    Members Spells (a :: as) (left ++ (t ++ (right ++ ',' :: rest)))

/-- A field of a record: its key in quotation marks, a colon and its value. -/
inductive Field (Spells : Json → Text → Prop) : String × Json → Text → Prop
  | mk {key : String} {v : Json} {name left right t : Text} (named : SpellsChars key.toList name)
    (before : Spaces left) (after : Spaces right) (spelled : Spells v t) :
    Field Spells (key, v) ('"' :: (name ++ '"' :: (left ++ ':' :: (right ++ t))))

/-- The ways to write a value. -/
inductive Spells : Json → Text → Prop
  | yes : Spells (.bool true) ['t', 'r', 'u', 'e']
  | no : Spells (.bool false) ['f', 'a', 'l', 's', 'e']
  | number {n : Nat} {t : Text} (digits : Numeral n t) : Spells (.num n) t
  | negative {n : Nat} {t : Text} (digits : Numeral n t) : Spells (.num (-n)) ('-' :: t)
  | quoted {s t : Text} (characters : SpellsChars s t) : Spells (.str s) ('"' :: (t ++ ['"']))
  | emptyList {t : Text} (inside : Spaces t) : Spells (.arr []) ('[' :: (t ++ [']']))
  | list {vs : List Json} {t : Text} (items : Members Spells vs t) : Spells (.arr vs) ('[' :: (t ++ [']']))
  | emptyRecord {t : Text} (inside : Spaces t) : Spells (.obj []) ('\x7b' :: (t ++ ['\x7d']))
  | record {fields : List (String × Json)} {t : Text} (members : Members (Field Spells) fields t) :
    Spells (.obj fields) ('\x7b' :: (t ++ ['\x7d']))

/-- A whole text writes a value, with nothing but spaces around it. -/
inductive Document : Json → Text → Prop
  | mk {v : Json} {left t right : Text} (before : Spaces left) (spelled : Spells v t) (after : Spaces right) :
    Document v (left ++ (t ++ right))

end SequenceDiagram.Json
