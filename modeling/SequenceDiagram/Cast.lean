import SequenceDiagram.Actor

/-!
The cast of a diagram: its actors in the order of their first mention. A mention of a new name adds
the actor before its marker is looked at, so an actor whose first mention is refused still has its
place. What the marker does, it does to the actor of that name and to no other.
-/

namespace SequenceDiagram

/-- The actors of a diagram, in the order of their first mention. -/
structure Cast where
  actors : List Actor := []
deriving DecidableEq, Repr

/-- A mention that does not fit the life of its actor. -/
structure LifecycleError where
  fault : LifecycleFault
  name : Text
  line : Nat
deriving DecidableEq, Repr

/-- What a reader of the diagram is told about the mention. -/
def LifecycleError.message (e : LifecycleError) : String :=
  let name := String.ofList e.name
  let line := e.line
  match e.fault with
  | .endsUnopened => s!"Bad Termination of '{name}' @ {line}?"
  | .oneShotWhileOpen => s!"Badly nested one off of '{name}' @ {line}?"
  | .ambiguousMarker =>
    s!"Ambiguous lifecycle marker on '{name}' @ {line}? (use '/{name}' or '{name}/', not both)"

namespace Cast

def size (c : Cast) : Nat := c.actors.length

def isEmpty (c : Cast) : Bool := c.actors.isEmpty

/-- The names in order. -/
def names (c : Cast) : List Text := c.actors.map Actor.name

/-- The actor with this name. -/
def find? (c : Cast) (name : Text) : Option Actor := c.actors.find? (·.name == name)

/-- The place of the actor with this name, counted from zero. -/
def indexOf? (c : Cast) (name : Text) : Option Nat := c.actors.findIdx? (·.name == name)

/-- The actor at a place. -/
def get? (c : Cast) (index : Nat) : Option Actor := c.actors[index]?

/-- The cast with an actor of this name, added at the end if there was none. -/
def enroll (c : Cast) (name : Text) : Cast :=
  if (c.find? name).isSome then c else ⟨c.actors ++ [{ name := name }]⟩

/-- The life of the actor with this name; nobody's is the empty one. -/
def lifespanOf (c : Cast) (name : Text) : Lifespan := ((c.find? name).map Actor.lifespan).getD {}

/-- The cast with another life for the actor of this name. -/
def setLifespan (c : Cast) (name : Text) (life : Lifespan) : Cast :=
  ⟨c.actors.map fun a => if a.name == name then { a with lifespan := life } else a⟩

/-- Takes note of an actor token at a line: the name that it refers to, or why it is refused, and the
cast afterwards. -/
def refer (c : Cast) (token : Text) (line : Nat) : Except LifecycleError Text × Cast :=
  let m := Mention.ofToken token
  let c := c.enroll m.name
  match (c.lifespanOf m.name).mention m.marker line with
  | .ok life => (.ok m.name, c.setLifespan m.name life)
  | .error fault => (.error ⟨fault, m.name, line⟩, c)

/-- The cast with every life that is still open ended at a line. -/
def cap (c : Cast) (line : Nat) : Cast :=
  ⟨c.actors.map fun a => { a with lifespan := a.lifespan.cap line }⟩

end Cast

end SequenceDiagram
