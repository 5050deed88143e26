import SequenceDiagram.Editor.Buffer

/-!
A text in one piece, with a position between two of its characters. Newlines are characters like all
others here. The keys that type, take away or step one character on have a meaning for such a text;
the keys that need to know where lines begin have none.
-/

namespace SequenceDiagram

/-- A text and a number of characters from its start. -/
structure FlatText where
  text : Text
  position : Nat
deriving DecidableEq, Repr

namespace FlatText

/-- Puts a character in at the position, which moves behind it. -/
def insert (f : FlatText) (c : Char) : FlatText :=
  ⟨f.text.take f.position ++ c :: f.text.drop f.position, f.position + 1⟩

/-- Takes away the character before the position. At the start there is none. -/
def eraseBefore (f : FlatText) : FlatText :=
  if f.position = 0 then f
  else ⟨f.text.take (f.position - 1) ++ f.text.drop f.position, f.position - 1⟩

/-- Takes away the character after the position. At the end there is none. -/
def eraseAfter (f : FlatText) : FlatText :=
  if f.position = f.text.length then f
  else ⟨f.text.take f.position ++ f.text.drop (f.position + 1), f.position⟩

/-- What a key does that needs no lines. -/
def press? (f : FlatText) : Key → Option FlatText
  | .char c => some (f.insert c)
  | .tab => some (f.insert ' ')
  | .enter => some (f.insert '\n')
  | .backspace => some f.eraseBefore
  | .delete => some f.eraseAfter
  | .left => some { f with position := f.position - 1 }
  | .right => some { f with position := min (f.position + 1) f.text.length }
  | _ => none

end FlatText

namespace Buffer

/-- The number of characters before the cursor in the whole text, a newline after each line included. -/
def position (b : Buffer) : Nat := ((b.lines.take b.row).map (·.length + 1)).foldr (· + ·) 0 + b.column

/-- The buffer in one piece. -/
def flat (b : Buffer) : FlatText := ⟨b.text, b.position⟩

/-- The buffer after some keys. -/
def type (b : Buffer) (keys : List Key) : Buffer := keys.foldl (fun b k => (b.press k).2) b

end Buffer

end SequenceDiagram
