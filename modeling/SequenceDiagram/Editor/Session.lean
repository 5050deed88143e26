import SequenceDiagram.Editor.Buffer
import SequenceDiagram.Editor.Preview

/-!
An editing session: a text under a cursor with its preview beside it. A key that changes the text
also asks for a new drawing. Keys held with Control only ever end the session.
-/

namespace SequenceDiagram

/-- The state of an editing session. -/
structure Session where
  buffer : Buffer
  preview : Preview
  /-- The session is to end. -/
  quit : Bool := false
deriving DecidableEq, Repr

namespace Session

/-- A session on a text, which is drawn at once. -/
def start (text : Text) (width height : Nat) : Session :=
  let buffer := Buffer.ofText text
  { buffer, preview := (Preview.ofScreen width height).refresh buffer.text }

/-- The journal of starting a session. -/
def startJournal (text : Text) (width height : Nat) : List Entry :=
  (Preview.ofScreen width height).journal (Buffer.ofText text).text

/-- The session after a key. -/
def press (s : Session) (k : Key) (control : Bool) (now : Nat) : Session :=
  if k = .escape ∨ (control ∧ k = .char 'c') then { s with quit := true }
  else if control then s
  else
    let (changed, buffer) := s.buffer.press k
    { s with buffer, preview := if changed then (s.preview.noteKey k now).2 else s.preview }

def resize (s : Session) (width height now : Nat) : Session :=
  { s with preview := s.preview.resize width height now }

/-- Looks whether the text is to be drawn: whether it was, and the session afterwards. -/
def poll (s : Session) (now : Nat) : Bool × Session :=
  let (ran, preview) := s.preview.poll s.buffer.text now
  (ran, { s with preview })

/-- The journal of looking whether the text is to be drawn. -/
def pollJournal (s : Session) (now : Nat) : List Entry :=
  s.preview.pollJournal s.buffer.text now

end Session

end SequenceDiagram
