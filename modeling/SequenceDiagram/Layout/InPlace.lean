import SequenceDiagram.Layout.Arrange

/-!
Arranging a diagram where it stands. The diagram is changed one actor or one message at a time, and a
step that fails leaves it as the steps before have made it. So every message is looked at before the
first change, and after that nothing can fail.
-/

namespace SequenceDiagram.Layout

/-- Steps that change a diagram. The diagram is there after a failure as well. -/
abbrev Editing := EStateM LayoutError Diagram

namespace Editing

/-- Changes the actor at a place. -/
def changeActor (place : Nat) (change : Actor → Actor) : Editing Unit :=
  modify fun d => { d with cast := ⟨d.cast.actors.modify place change⟩ }

/-- Changes the actors at places one after the other. -/
def changeActors (places : List Nat) (change : Actor → Actor) : Editing Unit :=
  forM places fun place => changeActor place change

/-- Changes the message at an index. -/
def changeMessage (index : Nat) (change : Message → Message) : Editing Unit :=
  modify fun d => { d with messages := d.messages.modify index change }

/-- The places of a message's actors, found in the diagram as it is. -/
def look (index : Nat) (m : Message) : Editing Ends := do
  match m.ends (← get).cast index with
  | .ok e => return e
  | .error e => throw e

/-- Puts headers on the actors at places one after the other, from a column on, and reports those that
take a share of the page or more. -/
def placeHeaders (measure : Measure) (page : Page) (share : Nat) : List Nat → Nat → Editing (List Overflow)
  | [], _ => return []
  | place :: places, left => do
    match (← get).cast.get? place with
    | none => placeHeaders measure page share places left
    | some a =>
      let width := headerWidth measure page a.name
      changeActor place ({ · with slot := { left, width, top := page.gutter, height := page.lineHeight } })
      let later ← placeHeaders measure page share places (left + width + page.gutter)
      return if share ≤ width then { index := place, name := a.name, width, share } :: later else later

/-- Grants a demand, and tells whether the row had no room for it. -/
def grant (demand : Demand) : Editing Bool := do
  let row := (← get).cast.actors
  if demand.isMet row then return false
  let columns := demand.shortfall row
  changeActors (List.range' demand.right (row.length - demand.right)) (·.moveRight columns)
  return true

/-- The turn of a message: it gets its direction, and its label the room that it demands. -/
def turn (measure : Measure) (index : Nat) (e : Ends) : Editing (Option Widening) := do
  changeMessage index (·.resolve e)
  let d ← get
  match d.messages[index]?.bind (·.demand? measure (d.cast.size - 1) e) with
  | none => return none
  | some demand => return if ← grant demand then some ⟨index, demand.columns⟩ else none

/-- The turns of the messages from an index on. -/
def turns (measure : Measure) : Nat → List Ends → Editing (List Widening)
  | _, [] => return []
  | index, e :: ends => do
    let first ← turn measure index e
    let later ← turns measure (index + 1) ends
    return first.toList ++ later

/-- Places the actors and decides the directions. -/
def arrange (measure : Measure) (page : Page) : Editing Outcome := do
  let d ← get
  if d.cast.isEmpty then return {}
  let ends ← d.messages.zipIdx.mapM fun (m, index) => look index m
  let warnings ← placeHeaders measure page (page.width / d.cast.size) (List.range d.cast.size) page.gutter
  let widened ← turns measure 0 ends
  return { headerOffset := headerOffset (← get).cast.actors, warnings, widened }

end Editing

end SequenceDiagram.Layout
