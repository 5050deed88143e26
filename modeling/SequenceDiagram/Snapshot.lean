import SequenceDiagram.Json
import SequenceDiagram.Layout.Arrange

/-!
The layout of a diagram as data: all that places and connects its parts, in a fixed order of fields.
A message whose direction is open has no field for it, and a layout without warnings has no list of
them.
-/

namespace SequenceDiagram

/-- What is exported of a diagram and its layout. -/
structure Snapshot where
  lineCount : Nat
  headerOffset : Nat
  actors : List Actor
  messages : List Message
  warnings : List Overflow
deriving DecidableEq, Repr

namespace Snapshot

/-- The snapshot of a diagram with what its layout reported. -/
def capture (d : Diagram) (o : Outcome) : Snapshot where
  lineCount := d.lineCount
  headerOffset := o.headerOffset
  actors := d.cast.actors
  messages := d.messages
  warnings := o.warnings

/-- A natural number as data. -/
def number (n : Nat) : Json := .num n

def ofActor (a : Actor) : Json :=
  .obj [("name", .str a.name), ("x", number a.slot.left), ("dx", number a.slot.width),
    ("y", number a.slot.top), ("dy", number a.slot.height), ("mid", number a.mid),
    ("existence", .arr (a.lifespan.marks.map .num))]

def ofMessage (m : Message) : Json :=
  .obj ([("source", .str m.source), ("target", .str m.target), ("arrow", .str m.arrow.token),
      ("weight", .str m.arrow.weight.name.toList)] ++
    (m.rightward.map fun r => ("rightward", .bool r)).toList ++ [("label", .str m.label)])

def ofOverflow (o : Overflow) : Json :=
  .obj [("kind", .str "label_overflow".toList), ("actor_index", number o.index), ("name", .str o.name),
    ("width", number o.width), ("max_width", number o.share)]

/-- The snapshot as a record. -/
def toJson (s : Snapshot) : Json :=
  .obj ([("line_count", number s.lineCount), ("header_offset", number s.headerOffset),
      ("actors", .arr (s.actors.map ofActor)), ("instructions", .arr (s.messages.map ofMessage))] ++
    if s.warnings.isEmpty then [] else [("warnings", .arr (s.warnings.map ofOverflow))])

/-- The snapshot as text. -/
def toText (s : Snapshot) : Text := s.toJson.pretty

end Snapshot

end SequenceDiagram
