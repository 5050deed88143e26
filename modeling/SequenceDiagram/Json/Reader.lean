import SequenceDiagram.Json.Grammar

/-!
Reading the data format. Each reader takes what it reads from the start of a text and hands on the
rest. A reader of values is given a bound on how deep they are nested; the length of a text is one.
-/

namespace SequenceDiagram.Json

def skipSpaces (t : Text) : Text := t.dropWhile isSpace

/-- Reads a text up to the quotation mark that ends it. -/
def readChars : Text → Option (Text × Text)
  | [] => none
  | '"' :: rest => some ([], rest)
  | '\\' :: 'u' :: a :: b :: c :: d :: rest => do
    let ch ← charOfCode? a b c d
    let (s, rest) ← readChars rest
    return (ch :: s, rest)
  | '\\' :: e :: rest => do
    let ch ← shortEscapes.lookup e
    let (s, rest) ← readChars rest
    return (ch :: s, rest)
  | c :: rest =>
    if c < ' ' then none
    else do
      let (s, rest) ← readChars rest
      return (c :: s, rest)

/-- Reads digits, of which a zero may not be the first of several. -/
def readNumeral (t : Text) : Option (Nat × Text) :=
  let digits := t.takeWhile Char.isDigit
  if digits = [] ∨ (digits.head? = some '0' ∧ digits ≠ ['0']) then none
  else some (Nat.ofDigitChars 10 digits 0, t.dropWhile Char.isDigit)

/-- Reads members with commas between them up to the closing bracket, so many at most. -/
def readMembers {α : Type} (readOne : Text → Option (α × Text)) (closing : Char) : Nat → Text → Option (List α × Text)
  | 0, _ => none
  | bound + 1, t => do
    let (a, rest) ← readOne (skipSpaces t)
    match skipSpaces rest with
    | [] => none
    | c :: rest =>
      if c = closing then return ([a], rest)
      else if c = ',' then do
        let (as, rest) ← readMembers readOne closing bound rest
        return (a :: as, rest)
      else none

/-- Reads the inside of a list or record and its closing bracket. -/
def readInside {α : Type} (readOne : Text → Option (α × Text)) (closing : Char) (bound : Nat) (t : Text) :
    Option (List α × Text) :=
  if (skipSpaces t).head? = some closing then some ([], (skipSpaces t).tail)
  else readMembers readOne closing bound t

/-- Reads a key, a colon and a value. -/
def readField (readOne : Text → Option (Json × Text)) : Text → Option ((String × Json) × Text)
  | '"' :: t => do
    let (key, rest) ← readChars t
    match skipSpaces rest with
    | ':' :: rest => do
      let (v, rest) ← readOne (skipSpaces rest)
      return ((String.ofList key, v), rest)
    | _ => none
  | _ => none

/-- Reads a value that is nested less deep than a bound. -/
def readValue : Nat → Text → Option (Json × Text)
  | 0, _ => none
  | depth + 1, t =>
    match t with
    | '[' :: rest => (readInside (readValue depth) ']' (depth + 1) rest).map fun (vs, rest) => (.arr vs, rest)
    | '\x7b' :: rest =>
      (readInside (readField (readValue depth)) '\x7d' (depth + 1) rest).map fun (fields, rest) => (.obj fields, rest)
    | '"' :: rest => (readChars rest).map fun (s, rest) => (.str s, rest)
    | 't' :: 'r' :: 'u' :: 'e' :: rest => some (.bool true, rest)
    | 'f' :: 'a' :: 'l' :: 's' :: 'e' :: rest => some (.bool false, rest)
    | '-' :: rest => (readNumeral rest).map fun (n, rest) => (.num (-n), rest)
    | t => (readNumeral t).map fun (n, rest) => (.num n, rest)

/-- The value that a whole text writes. -/
def read? (t : Text) : Option Json := do
  let (v, rest) ← readValue t.length (skipSpaces t)
  if skipSpaces rest = [] then some v else none

example : read? " [ -10, \"\\u0041\\n\"] ".toList = some (.arr [.num (-10), .str ['A', '\n']]) := rfl

end SequenceDiagram.Json
