import Mathlib.Init
import SequenceDiagram.Cast

/-!
The cast as it is stored. The actors are kept in a table that is sorted by their names, and the order
of their first mention in a list of names beside it. A place is looked up in the list first and its
name then in the table, and nothing sees to it that the two hold the same names.
-/

namespace SequenceDiagram

/-- The names in order and the table of the actors. -/
structure Registry where
  order : List Text := []
  table : Std.TreeMap Text Actor := {}

namespace Registry

def size (r : Registry) : Nat := r.order.length

def isEmpty (r : Registry) : Bool := r.order.isEmpty

/-- The actor with this name. -/
def find? (r : Registry) (name : Text) : Option Actor := r.table[name]?

/-- The place of a name, counted from zero. -/
def indexOf? (r : Registry) (name : Text) : Option Nat := r.order.findIdx? (· == name)

/-- The actor at a place. -/
def actorAt? (r : Registry) (place : Nat) : Option Actor := r.order[place]?.bind r.find?

/-- The actors in order. A name that the table does not have is passed over. -/
def actors (r : Registry) : List Actor := r.order.filterMap r.find?

/-- The registry with the actor of this name changed. -/
def change (r : Registry) (name : Text) (edit : Actor → Actor) : Registry :=
  { r with table := r.table.modify name edit }

/-- The registry with the actor at a place changed. -/
def changeAt (r : Registry) (place : Nat) (edit : Actor → Actor) : Registry :=
  match r.order[place]? with
  | none => r
  | some name => r.change name edit

/-- The registry with an actor of this name, added at the end of the order if the table had none. -/
def enroll (r : Registry) (name : Text) : Registry :=
  if name ∈ r.table then r else { order := r.order ++ [name], table := r.table.insert name { name := name } }

/-- The life of the actor with this name; nobody's is the empty one. -/
def lifespanOf (r : Registry) (name : Text) : Lifespan := ((r.find? name).map Actor.lifespan).getD {}

/-- Takes note of an actor token at a line, as a cast does. -/
def refer (r : Registry) (token : Text) (line : Nat) : Except LifecycleError Text × Registry :=
  let m := Mention.ofToken token
  let r := r.enroll m.name
  match (r.lifespanOf m.name).mention m.marker line with
  | .ok life => (.ok m.name, r.change m.name ({ · with lifespan := life }))
  | .error fault => (.error ⟨fault, m.name, line⟩, r)

/-- The registry with every life that is still open ended at a line. The actors are found by the names of
the order, one after the other. -/
def cap (r : Registry) (line : Nat) : Registry :=
  r.order.foldl (fun r name => r.change name fun a => { a with lifespan := a.lifespan.cap line }) r

/-- Takes note of mentions one after the other, whatever the answers. -/
def referAll (r : Registry) : List (Text × Nat) → List (Except LifecycleError Text) × Registry
  | [] => ([], r)
  | (token, line) :: mentions =>
    let (answer, next) := r.refer token line
    let (answers, last) := next.referAll mentions
    (answer :: answers, last)

end Registry

end SequenceDiagram
