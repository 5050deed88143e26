import SequenceDiagram.Message
import SequenceDiagram.Text.Pattern

/-!
A statement is one line of a diagram: an actor token, an arrow, a second actor token and a label.
This module says what may stand in a statement and which lines write it. `Statement.print` gives the
plainest of those lines; reading a line is in `SequenceDiagram.Statement.Reader`.

The notation is also one pattern. Names are runs of word characters with blanks between and after them,
so a run of blanks may belong to a name or part the pieces of the line; which of the two it does follows
from the order of the pattern's ways.
-/

namespace SequenceDiagram

/-- A character that names are made of: an ASCII letter, an ASCII digit or an underscore. -/
def isWordChar (c : Char) : Bool := c.isAlphanum || c == '_'

/-- A character that may follow the first one of a name. -/
def isNameChar (c : Char) : Bool := isWordChar c || c == ' '

/-- A slash that may be there or not. -/
inductive OptionalSlash : Text → Prop where
  | absent : OptionalSlash []
  | present : OptionalSlash ['/']

/-- A token that refers to an actor: a name with blanks allowed after its first character, and a
slash allowed on either side. -/
inductive ActorToken : Text → Prop where
  | intro {opening closing name : Text} {first : Char} (before : OptionalSlash opening)
      (starts : isWordChar first = true) (continues : ∀ c ∈ name, isNameChar c = true)
      (after : OptionalSlash closing) : ActorToken (opening ++ first :: name ++ closing)

/-- The text of a label. It starts at the first character that is no blank; only where there is none
is it a single blank. -/
structure LabelText (label : Text) : Prop where
  full : label ≠ []
  oneLine : '\n' ∉ label
  visible : label.head? ≠ some ' ' ∨ label = [' ']

/-- One line of a diagram, cut into its parts. The actor tokens keep their slashes and blanks. -/
structure Statement where
  source : Text
  arrow : Arrow
  target : Text
  label : Text
deriving DecidableEq, Repr

namespace Statement

/-- The line for a statement with `gap` blanks after the arrow and `margin` blanks after the colon. -/
def spell (s : Statement) (gap margin : Nat) : Text :=
  s.source ++ ' ' :: s.arrow.token ++ List.replicate gap ' ' ++ s.target ++ ':' :: List.replicate margin ' ' ++ s.label

/-- The line for a statement with a single blank at each place where more are allowed. -/
def print (s : Statement) : Text :=
  s.source ++ ' ' :: s.arrow.token ++ ' ' :: s.target ++ ':' :: ' ' :: s.label

/-- What may stand in a statement. -/
structure Proper (s : Statement) : Prop where
  source : ActorToken s.source
  target : ActorToken s.target
  label : LabelText s.label

/-- A statement whose line can stand in a text: a carriage return at its end would be taken for a part
of the line break. -/
structure Printable (s : Statement) : Prop extends s.Proper where
  ending : s.label.getLast? ≠ some '\r'

/-- The line writes the statement with this many blanks after the arrow and after the colon. -/
structure WrittenWith (line : Text) (s : Statement) (gap margin : Nat) : Prop where
  proper : s.Proper
  gapped : 0 < gap
  margined : 0 < margin
  spelled : line = s.spell gap margin

/-- The line writes the statement: exactly one blank before the arrow, one or more after it and after
the colon. -/
def WrittenBy (line : Text) (s : Statement) : Prop := ∃ gap margin, WrittenWith line s gap margin

/-! ### The notation as a pattern -/

open Pattern

def tokenPattern : Pattern :=
  seq (optional (char '/'))
    (seq (atLeastOne (seq (atLeastOne (one isWordChar)) (many (char ' ')))) (optional (char '/')))

def arrowPattern : Pattern :=
  either (literal ['<', '=']) (either (literal ['<', '-']) (either (literal ['-', '>']) (literal ['=', '>'])))

/-- The label, to the end of the line. -/
def labelPattern : Pattern := seq (group (atLeastOne (one (· != '\n')))) stop

/-- What follows the colon. -/
def labelPart : Pattern := seq (atLeastOne (char ' ')) labelPattern

def targetPart : Pattern := seq (group tokenPattern) (seq (char ':') labelPart)

def arrowPart : Pattern := seq (group arrowPattern) (seq (atLeastOne (char ' ')) targetPart)

/-- A whole line. The groups are the source, the arrow, the target and the label. -/
def linePattern : Pattern := seq (group tokenPattern) (seq (char ' ') arrowPart)

/-- The statement with these groups. -/
def ofGroups? : List Text → Option Statement
  | [source, arrow, target, label] => (Arrow.ofToken? arrow).map ({ source, arrow := ·, target, label })
  | _ => none

end Statement

end SequenceDiagram
