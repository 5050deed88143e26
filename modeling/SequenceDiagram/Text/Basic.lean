/-!
Text is a list of characters throughout, so every length and every column counts characters. This
module holds the type, the blank characters and their removal at both ends, and two ways to cut a text
into lines. `lines` reads what a person wrote: a line ends at a newline, together with one carriage
return right before it, and a text that ends in a newline has no further line. `split` takes every
newline as a separator, so it undoes `join` on lines free of newlines.
-/

namespace SequenceDiagram

/-- A piece of text, as its characters in order. -/
abbrev Text := List Char

namespace Text

/-- The characters with the property White_Space: the blanks that names are trimmed of. -/
def blanks : List Char :=
  ['\t', '\n', '\x0b', '\x0c', '\r', ' ', '\u0085', '\u00a0', '\u1680', '\u2000', '\u2001', '\u2002',
    '\u2003', '\u2004', '\u2005', '\u2006', '\u2007', '\u2008', '\u2009', '\u200a', '\u2028', '\u2029',
    '\u202f', '\u205f', '\u3000']

def isBlank (c : Char) : Bool := blanks.contains c

example : blanks.length = 25 := by decide

/-- Without the longest run of characters in `p` at the end. -/
def dropEndWhile (p : Char → Bool) (t : Text) : Text := (t.reverse.dropWhile p).reverse

/-- Without blanks at either end; blanks inside stay. -/
def trim (t : Text) : Text := dropEndWhile isBlank (t.dropWhile isBlank)

example : trim [' ', 'W', 'e', 'b', ' ', 'S', '\u00a0'] = ['W', 'e', 'b', ' ', 'S'] := by decide

/-! ### Lines -/

/-- Puts `c` in front of the first line. A text without lines becomes one line. -/
def consFirst (c : Char) : List Text → List Text
  | [] => [[c]]
  | l :: ls => (c :: l) :: ls

/-- The lines of a text as a reader sees them. A carriage return that does not stand right before a
newline belongs to its line, also at the end of the text. -/
def lines : Text → List Text
  | [] => []
  | '\n' :: cs => [] :: lines cs
  | '\r' :: '\n' :: cs => [] :: lines cs
  | c :: cs => consFirst c (lines cs)

example : lines ['a', '\r', '\n', '\n', 'b', '\r'] = [['a'], [], ['b', '\r']] := by decide

example : lines ['a', '\n'] = [['a']] := by decide

/-- The pieces between newlines: always one more than there are newlines. -/
def split (t : Text) : List Text := t.splitOn '\n'

/-- The lines with a newline between each two. -/
def join (ls : List Text) : Text := ['\n'].intercalate ls

/-- The text without spaces at the ends of its lines and without empty lines at its end. -/
def trimLines (t : Text) : Text :=
  let lines := t.split.map (dropEndWhile (· == ' '))
  join (lines.reverse.dropWhile List.isEmpty).reverse

end Text

end SequenceDiagram
