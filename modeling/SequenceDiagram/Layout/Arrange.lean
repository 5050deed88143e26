import SequenceDiagram.Layout.Room

/-!
Arranging a diagram: headers are placed side by side from the left, every message gets its direction,
and then each message in turn is given room for its label. A diagram that names an actor who does not
take part, or that is arranged already, is refused as a whole before anything is placed. Columns are added
up without end here; where a machine's words end, `SequenceDiagram.Layout.Counted` ends the layout.
-/

namespace SequenceDiagram

/-- Why a diagram cannot be arranged. -/
inductive LayoutError where
  /-- The message at this index names an actor who does not take part. -/
  | unknownActor (index : Nat) (name : Text)
  /-- The message at this index has a direction already. -/
  | alreadyResolved (index : Nat)
deriving DecidableEq, Repr

def LayoutError.message : LayoutError → String
  | unknownActor index name =>
    let name := String.ofList name
    s!"instruction {index} references unknown actor '{name}'"
  | alreadyResolved index => s!"instruction {index} direction was already resolved"

/-- A header at least as wide as its share of the page. -/
structure Overflow where
  /-- The place of the actor. -/
  index : Nat
  name : Text
  width : Nat
  /-- The share of the page that each header has. -/
  share : Nat
deriving DecidableEq, Repr

def Overflow.message (o : Overflow) : String :=
  let name := String.ofList o.name
  let index := o.index
  s!"Label #{index} ('{name}') is very large."

/-- A message that found its demand not met. -/
structure Widening where
  /-- The index of the message. -/
  index : Nat
  /-- The columns it asked for. -/
  columns : Nat
deriving DecidableEq, Repr

/-- What a layout reports besides the places. -/
structure Outcome where
  /-- The first row below all headers. -/
  headerOffset : Nat := 0
  /-- The headers too wide for the page, from left to right. -/
  warnings : List Overflow := []
  /-- The messages that the row was widened for, in order. -/
  widened : List Widening := []
deriving DecidableEq, Repr

/-- The places of the two actors of a message. -/
structure Ends where
  source : Nat
  target : Nat
deriving DecidableEq, Repr

namespace Message

/-- The places of a message's actors. A direction decided before is found first, then a source who
does not take part, then such a target. -/
def ends (cast : Cast) (index : Nat) (m : Message) : Except LayoutError Ends :=
  if m.rightward.isSome then .error (.alreadyResolved index)
  else match cast.indexOf? m.source, cast.indexOf? m.target with
    | none, _ => .error (.unknownActor index m.source)
    | some _, none => .error (.unknownActor index m.target)
    | some source, some target => .ok { source, target }

/-- The message with its direction: towards the target, or towards the source for a backward arrow. -/
def resolve (m : Message) (e : Ends) : Message :=
  { m with rightward := some (xor (decide (e.source < e.target)) m.arrow.backward) }

/-- The room that the label needs in a row whose last place is `last`. A message to oneself needs it
up to the next actor, and the last actor's needs none. -/
def demand? (measure : Measure) (last : Nat) (m : Message) (e : Ends) : Option Demand :=
  let columns := if m.isSelf then measure.loop m.label else measure.message m.label
  let left := min e.source e.target
  let right := max e.source e.target
  if left < right then some { left, right, columns }
  else if left = last then none
  else some { left, right := left + 1, columns }

end Message

namespace Layout

/-- The width of the header for a name. -/
def headerWidth (measure : Measure) (page : Page) (name : Text) : Nat :=
  measure.header name + 2 * page.gutter

/-- The actors with their headers side by side from column `left` on, a gutter between each two. -/
def placeHeaders (measure : Measure) (page : Page) (left : Nat) : List Actor → List Actor
  | [] => []
  | a :: actors =>
    let width := headerWidth measure page a.name
    { a with slot := { left, width, top := page.gutter, height := page.lineHeight } } ::
      placeHeaders measure page (left + width + page.gutter) actors

/-- The headers that fill or exceed an equal share of the page. -/
def overflows (measure : Measure) (page : Page) (cast : Cast) : List Overflow :=
  let share := page.width / cast.size
  cast.actors.zipIdx.filterMap fun (a, index) =>
    let width := headerWidth measure page a.name
    if share ≤ width then some { index, name := a.name, width, share } else none

/-- The places of the actors of every message, or the first refusal. -/
def resolveEnds (d : Diagram) : Except LayoutError (List Ends) :=
  d.messages.zipIdx.mapM fun (m, index) => m.ends d.cast index

/-- The demands of the messages in order, each with its message's index. -/
def demands (measure : Measure) (d : Diagram) (ends : List Ends) : List (Nat × Demand) :=
  (d.messages.zip ends).zipIdx.filterMap fun ((m, e), index) =>
    (m.demand? measure (d.cast.size - 1) e).map (index, ·)

/-- The row after each demand in turn has been granted. -/
def grantAll (actors : List Actor) (demands : List (Nat × Demand)) : List Actor :=
  demands.foldl (fun row d => d.2.grant row) actors

/-- The row once the first messages, so many, have had their turn. -/
def rowAfter (measure : Measure) (page : Page) (d : Diagram) (ends : List Ends) (count : Nat) : List Actor :=
  grantAll (placeHeaders measure page page.gutter d.cast.actors)
    (demands measure { d with messages := d.messages.take count } (ends.take count))

/-- The messages whose demand the row did not meet when their turn came. -/
def widenings (actors : List Actor) : List (Nat × Demand) → List Widening
  | [] => []
  | (index, d) :: rest =>
    let later := widenings (d.grant actors) rest
    if d.isMet actors then later else ⟨index, d.columns⟩ :: later

/-- The first row below all headers. -/
def headerOffset (actors : List Actor) : Nat := (actors.map (·.slot.bottom)).foldl max 0

/-- Places the actors and decides the directions. -/
def arrange (measure : Measure) (page : Page) (d : Diagram) : Except LayoutError (Diagram × Outcome) :=
  if d.cast.isEmpty then .ok (d, {})
  else match resolveEnds d with
    | .error e => .error e
    | .ok ends =>
      let row := placeHeaders measure page page.gutter d.cast.actors
      let demands := demands measure d ends
      let actors := grantAll row demands
      .ok ({ d with cast := ⟨actors⟩, messages := d.messages.zipWith Message.resolve ends },
        { headerOffset := headerOffset actors,
          warnings := overflows measure page d.cast,
          widened := widenings row demands })

end Layout

end SequenceDiagram
