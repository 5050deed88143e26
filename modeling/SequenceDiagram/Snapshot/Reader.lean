import SequenceDiagram.Json.Reader
import SequenceDiagram.Snapshot

/-!
Reading an exported layout. A field is found by its key, wherever in its record it stands, and fields
of other keys are passed over. What an export tells twice, such as the weight of an arrow or the
centre line of a slot, has to agree.
-/

namespace SequenceDiagram

namespace Json

/-- The value of the first field with this key. -/
def get? (key : String) : Json → Option Json
  | .obj fields => fields.lookup key
  | _ => none

def bool? : Json → Option Bool
  | .bool b => some b
  | _ => none

def int? : Json → Option Int
  | .num z => some z
  | _ => none

def nat? : Json → Option Nat
  | .num (.ofNat n) => some n
  | _ => none

def text? : Json → Option Text
  | .str t => some t
  | _ => none

/-- The items of a list, if all of them can be read. -/
def items? {α : Type} (readItem : Json → Option α) : Json → Option (List α)
  | .arr items => items.mapM readItem
  | _ => none

/-- A field of this key. -/
def field? {α : Type} (key : String) (readField : Json → Option α) (v : Json) : Option α := v.get? key >>= readField

/-- A field of this key that may be left out. -/
def optional? {α : Type} (key : String) (readField : Json → Option α) (v : Json) : Option (Option α) :=
  match v.get? key with
  | none => some none
  | some v => (readField v).map some

end Json

namespace Snapshot

/-- The actor that a record tells of. -/
def actor? (v : Json) : Option Actor := do
  let name ← v.field? "name" Json.text?
  let left ← v.field? "x" Json.nat?
  let width ← v.field? "dx" Json.nat?
  let top ← v.field? "y" Json.nat?
  let height ← v.field? "dy" Json.nat?
  let mid ← v.field? "mid" Json.nat?
  let marks ← v.field? "existence" (Json.items? Json.int?)
  let slot : Slot := ⟨left, width, top, height⟩
  if mid = slot.mid then some ⟨name, ⟨marks⟩, slot⟩ else none

/-- The message that a record tells of. -/
def message? (v : Json) : Option Message := do
  let source ← v.field? "source" Json.text?
  let target ← v.field? "target" Json.text?
  let arrow ← v.field? "arrow" Json.text? >>= Arrow.ofToken?
  let weight ← v.field? "weight" Json.text?
  let rightward ← v.optional? "rightward" Json.bool?
  let label ← v.field? "label" Json.text?
  if weight = arrow.weight.name.toList then some ⟨arrow, source, target, label, rightward⟩ else none

/-- The warning that a record tells of. -/
def overflow? (v : Json) : Option Overflow := do
  let kind ← v.field? "kind" Json.text?
  let index ← v.field? "actor_index" Json.nat?
  let name ← v.field? "name" Json.text?
  let width ← v.field? "width" Json.nat?
  let share ← v.field? "max_width" Json.nat?
  if kind = "label_overflow".toList then some ⟨index, name, width, share⟩ else none

/-- The snapshot that a record tells of. Without a list of warnings there are none. -/
def ofJson? (v : Json) : Option Snapshot := do
  let lineCount ← v.field? "line_count" Json.nat?
  let headerOffset ← v.field? "header_offset" Json.nat?
  let actors ← v.field? "actors" (Json.items? actor?)
  let messages ← v.field? "instructions" (Json.items? message?)
  let warnings ← v.optional? "warnings" (Json.items? overflow?)
  return ⟨lineCount, headerOffset, actors, messages, warnings.getD []⟩

/-- The snapshot that a whole text tells of. -/
def read? (t : Text) : Option Snapshot := Json.read? t >>= ofJson?

end Snapshot

end SequenceDiagram
