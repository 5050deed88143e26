import SequenceDiagram.Text.Basic

/-!
A message between two actors, who are named and need not exist. The layout decides whether it runs to
the right; before that its direction is open. Its arrow is one of the four of the notation, a weight and
a sense: `->` and `=>` point from the source to the target, `<-` and `<=` the other way.
-/

namespace SequenceDiagram

/-- How heavy the bar of a message is drawn. -/
inductive Weight where
  | thin
  | thick
deriving DecidableEq, Repr

/-- The word for a weight in an exported layout. -/
def Weight.name : Weight → String
  | .thin => "thin"
  | .thick => "thick"

/-- An arrow between the two actors of a message. -/
structure Arrow where
  weight : Weight
  /-- The arrow points at the source and not at the target. -/
  backward : Bool
deriving DecidableEq, Repr

namespace Arrow

/-- The same arrow seen from its other end. -/
def mirror (a : Arrow) : Arrow := { a with backward := !a.backward }

/-- The two characters that write the arrow. -/
def token : Arrow → Text
  | ⟨.thin, false⟩ => ['-', '>']
  | ⟨.thin, true⟩ => ['<', '-']
  | ⟨.thick, false⟩ => ['=', '>']
  | ⟨.thick, true⟩ => ['<', '=']

/-- The arrow that a token writes. -/
def ofToken? : Text → Option Arrow
  | ['-', '>'] => some ⟨.thin, false⟩
  | ['<', '-'] => some ⟨.thin, true⟩
  | ['=', '>'] => some ⟨.thick, false⟩
  | ['<', '='] => some ⟨.thick, true⟩
  | _ => none

/-- Each arrow is read back from its own token. -/
theorem ofToken?_token (a : Arrow) : ofToken? a.token = some a := by
  obtain ⟨w, b⟩ := a
  cases w <;> cases b <;> rfl

/-- Reading accepts nothing but the four tokens. -/
theorem token_of_ofToken? {t : Text} {a : Arrow} (read : ofToken? t = some a) : a.token = t := by
  unfold ofToken? at read
  split at read <;> cases read <;> rfl

end Arrow

/-- A message with its label. -/
structure Message where
  arrow : Arrow
  source : Text
  target : Text
  label : Text
  /-- Whether the message runs from left to right, once a layout has decided. -/
  rightward : Option Bool := none
deriving DecidableEq, Repr

namespace Message

/-- An actor sends the message to itself. -/
def isSelf (m : Message) : Bool := m.source == m.target

/-- The same message told from its other end. -/
def mirror (m : Message) : Message :=
  { m with arrow := m.arrow.mirror, source := m.target, target := m.source }

end Message

end SequenceDiagram
