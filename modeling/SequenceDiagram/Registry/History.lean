import SequenceDiagram.Layout.Filed

/-!
The history of a registry: whatever may happen to it, from the empty one on. A mention may be refused, and
a layout may be of any messages and end in a refusal; the registry goes on with what they have left. The
same can happen to a cast, which has nothing to keep in step.
-/

namespace SequenceDiagram

/-- What may happen to a registry. -/
inductive Occasion where
  /-- An actor token is taken note of at a line. -/
  | mention (token : Text) (line : Nat)
  /-- The lives that are still open are ended at a line. -/
  | cap (line : Nat)
  /-- The actor at a place is given another slot, as a layout does on its way. -/
  | place (place : Nat) (slot : Slot)
  /-- The actors are laid out for messages between them. -/
  | layout (measure : Measure) (page : Page) (messages : List Message)

/-- The name that a mention is about. -/
def Occasion.name? : Occasion → Option Text
  | mention token _ => some (Mention.nameOf token)
  | _ => none

namespace Registry

/-- The registry after an occasion. -/
def after (r : Registry) : Occasion → Registry
  | .mention token line => (r.refer token line).2
  | .cap line => r.cap line
  | .place place slot => r.changeAt place ({ · with slot := slot })
  | .layout measure page messages =>
    match (Layout.Filing.arrange measure page).run { registry := r, messages } with
    | .ok _ s => s.registry
    | .error _ s => s.registry

/-- The registry after a run of occasions. -/
def run (r : Registry) (history : List Occasion) : Registry := history.foldl after r

end Registry

namespace Cast

/-- The cast after an occasion. -/
def after (c : Cast) : Occasion → Cast
  | .mention token line => (c.refer token line).2
  | .cap line => c.cap line
  | .place place slot => ⟨c.actors.modify place ({ · with slot := slot })⟩
  | .layout measure page messages =>
    match Layout.arrange measure page { cast := c, messages } with
    | .ok (arranged, _) => arranged.cast
    | .error _ => c

/-- The cast after a run of occasions. -/
def run (c : Cast) (history : List Occasion) : Cast := history.foldl after c

end Cast

end SequenceDiagram
