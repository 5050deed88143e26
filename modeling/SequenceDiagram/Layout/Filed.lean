import SequenceDiagram.Registry
import SequenceDiagram.Layout.Arrange

/-!
Arranging a diagram whose cast is kept in a registry. Actors are found by their place in the order and
changed in the table, one at a time, and the room of a label is measured place by place. A step that
fails leaves the diagram as the steps before have made it.
-/

namespace SequenceDiagram

/-- A diagram with its cast in a registry. -/
structure Filed where
  registry : Registry := {}
  messages : List Message := []
  lineCount : Nat := 0

namespace Layout

/-- Steps that change a filed diagram. The diagram is there after a failure as well. -/
abbrev Filing := EStateM LayoutError Filed

namespace Filing

/-- Changes the actor at a place. -/
def changeActor (place : Nat) (change : Actor → Actor) : Filing Unit :=
  modify fun s => { s with registry := s.registry.changeAt place change }

/-- Changes the message at an index. -/
def changeMessage (index : Nat) (change : Message → Message) : Filing Unit :=
  modify fun s => { s with messages := s.messages.modify index change }

/-- The place of an actor that the message with this index names. -/
def placeOf (index : Nat) (name : Text) : Filing Nat := do
  match (← get).registry.indexOf? name with
  | some place => return place
  | none => throw (.unknownActor index name)

/-- The places of a message's actors. -/
def look (index : Nat) (m : Message) : Filing Ends := do
  if m.rightward.isSome then throw (.alreadyResolved index)
  let source ← placeOf index m.source
  let target ← placeOf index m.target
  return { source, target }

/-- Puts headers on the actors at places one after the other, from a column on, and reports those that
take a share of the page or more. -/
def placeHeaders (measure : Measure) (page : Page) (share : Nat) : List Nat → Nat → Filing (List Overflow)
  | [], _ => return []
  | place :: places, left => do
    match (← get).registry.actorAt? place with
    | none => placeHeaders measure page share places left
    | some a =>
      let width := headerWidth measure page a.name
      changeActor place ({ · with slot := { left, width, top := page.gutter, height := page.lineHeight } })
      let later ← placeHeaders measure page share places (left + width + page.gutter)
      return if share ≤ width then { index := place, name := a.name, width, share } :: later else later

/-- The centre line at a place; beyond the last actor it is column 0. -/
def midAt (r : Registry) (place : Nat) : Nat := ((r.actorAt? place).map Actor.mid).getD 0

/-- Makes room between two places, and tells whether there was none. Where the places are the same, the
room is up to the next actor, and the last actor needs none. -/
def makeRoom (left right columns : Nat) : Filing Bool := do
  let r := (← get).registry
  if left = right ∧ left = r.size - 1 then return false
  let right := if left = right then left + 1 else right
  if (List.range' left (right + 1 - left)).any fun place => columns < midAt r place - midAt r left then
    return false
  let missing := columns - (midAt r right - midAt r left)
  forM (List.range' right (r.size - right)) fun place => changeActor place (·.moveRight missing)
  return true

/-- The turn of a message: it gets its direction, and its label the room that it needs. -/
def turn (measure : Measure) (index : Nat) (e : Ends) : Filing (Option Widening) := do
  changeMessage index (·.resolve e)
  match (← get).messages[index]? with
  | none => return none
  | some m =>
    let columns := if m.isSelf then measure.loop m.label else measure.message m.label
    return if ← makeRoom (min e.source e.target) (max e.source e.target) columns then some ⟨index, columns⟩
      else none

/-- The turns of the messages from an index on. -/
def turns (measure : Measure) : Nat → List Ends → Filing (List Widening)
  | _, [] => return []
  | index, e :: ends => do
    let first ← turn measure index e
    let later ← turns measure (index + 1) ends
    return first.toList ++ later

/-- Places the actors and decides the directions. -/
def arrange (measure : Measure) (page : Page) : Filing Outcome := do
  let s ← get
  if s.registry.isEmpty then return {}
  let ends ← s.messages.zipIdx.mapM fun (m, index) => look index m
  let warnings ← placeHeaders measure page (page.width / s.registry.size) (List.range s.registry.size) page.gutter
  let widened ← turns measure 0 ends
  return { headerOffset := headerOffset (← get).registry.actors, warnings, widened }

end Filing

end Layout

end SequenceDiagram
