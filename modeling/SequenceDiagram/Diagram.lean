import SequenceDiagram.Cast
import SequenceDiagram.Message
import SequenceDiagram.Statement.Reader
import SequenceDiagram.Text.Basic

/-!
A sequence diagram: who takes part, what is sent in which order, and how many lines it was written on.
A text is read as the diagram of the lines before its first empty one, each a statement; every line
extends the diagram of the lines before it, and the first line that cannot ends the reading with its
error. At the end the lives still open are closed at the last line.
-/

namespace SequenceDiagram

/-- A diagram, with or without a layout. -/
structure Diagram where
  cast : Cast := {}
  /-- The messages from top to bottom. -/
  messages : List Message := []
  /-- The number of lines that the diagram takes in its text. -/
  lineCount : Nat := 0
deriving DecidableEq, Repr

/-- Why a text is no diagram. -/
inductive ParseError where
  /-- The line with this number is no statement. -/
  | malformed (line : Nat)
  /-- A statement's mention does not fit the life of its actor. -/
  | lifecycle (error : LifecycleError)
deriving DecidableEq, Repr

namespace ParseError

/-- The number of the line at fault, counted from one. -/
def line : ParseError → Nat
  | malformed line => line
  | lifecycle error => error.line

def message : ParseError → String
  | malformed line => s!"Line {line} malformed."
  | lifecycle error => error.message

end ParseError

namespace Diagram

/-- The lines of a text that belong to the diagram: all before the first empty one. -/
def body (text : Text) : List Text := text.lines.takeWhile (!·.isEmpty)

/-- Adds the message of a statement as the next line. The source is mentioned before the target. -/
def addStatement (d : Diagram) (s : Statement) : Except LifecycleError Diagram :=
  let line := d.lineCount + 1
  match d.cast.refer s.source line with
  | (.error e, _) => .error e
  | (.ok source, cast) =>
    match cast.refer s.target line with
    | (.error e, _) => .error e
    | (.ok target, cast) =>
      .ok { cast, messages := d.messages ++ [{ arrow := s.arrow, source, target, label := s.label }],
            lineCount := line }

/-- The statement that the line with this number writes. -/
def readLine (number : Nat) (line : Text) : Except ParseError Statement :=
  match Statement.read? line with
  | none => .error (.malformed number)
  | some s => .ok s

/-- Adds a line of text to a diagram. -/
def addLine (d : Diagram) (line : Text) : Except ParseError Diagram :=
  match readLine (d.lineCount + 1) line with
  | .error e => .error e
  | .ok s => (d.addStatement s).mapError .lifecycle

/-- The diagram with every life that is still open ended at its last line. -/
def cap (d : Diagram) : Diagram := { d with cast := d.cast.cap d.lineCount }

/-- The diagram that a text writes. -/
def parse (text : Text) : Except ParseError Diagram :=
  ((body text).foldlM addLine {}).map cap

end Diagram

end SequenceDiagram
