import SequenceDiagram.Text.Basic

/-!
A mention is what an actor token says: which actor it names, and what its slashes do to that actor's
life. A slash in front ends the life, a slash behind makes it last for this line only.
-/

namespace SequenceDiagram

/-- What the slashes of an actor token ask for. -/
inductive Marker where
  /-- No slash: the actor is alive from here on. -/
  | plain
  /-- A slash in front: the actor's life ends here. -/
  | ending
  /-- A slash behind: the actor lives for this line only. -/
  | oneShot
  /-- Both slashes, which contradict each other. -/
  | ambiguous
deriving DecidableEq, Repr

/-- An actor's name together with the marker on it. -/
structure Mention where
  name : Text
  marker : Marker
deriving DecidableEq, Repr

namespace Mention

/-- The marker on a token, judged by its first and last character that is no blank. A lone slash
stands in front and not behind. -/
def markerOf (token : Text) : Marker :=
  let token := token.trim
  match token.head? == some '/', decide (1 < token.length) && token.getLast? == some '/' with
  | false, false => .plain
  | true, false => .ending
  | false, true => .oneShot
  | true, true => .ambiguous

/-- The name in a token: all slashes taken out, then trimmed. -/
def nameOf (token : Text) : Text := Text.trim (token.filter (· != '/'))

/-- Reads any text as a mention. -/
def ofToken (token : Text) : Mention := ⟨nameOf token, markerOf token⟩

example : ofToken "/Web Server ".toList = ⟨"Web Server".toList, .ending⟩ := by decide

example : ofToken ['/'] = ⟨[], .ending⟩ := by decide

end Mention

end SequenceDiagram
