import SequenceDiagram.Cast
import SequenceDiagram.Statement.Basic

/-!
Runs of mentions. A cast may hear mentions one after the other whatever it answers, or only up to the
first one that it refuses; the mentions of statements on successive lines are such a run.

A run of mentions can also be told actor by actor. The mentions of one name alone move a machine of two
phases, and its marks and answers are those of the actor; nothing else in the run matters to it.
-/

namespace SequenceDiagram

/-- The mentions of statements on successive lines, each with its line. -/
def mentionsFrom (line : Nat) (ss : List Statement) : List (Text × Nat) :=
  (ss.zipIdx line).flatMap fun (s, line) => [(s.source, line), (s.target, line)]

/-- The message that a statement writes. -/
def Statement.message (s : Statement) : Message :=
  { arrow := s.arrow, source := Mention.nameOf s.source, target := Mention.nameOf s.target, label := s.label }

namespace Cast

/-- Takes note of mentions one after the other, whatever the answers. -/
def referAll (c : Cast) : List (Text × Nat) → List (Except LifecycleError Text) × Cast
  | [] => ([], c)
  | (token, line) :: mentions =>
    let (answer, next) := c.refer token line
    let (answers, last) := next.referAll mentions
    (answer :: answers, last)

/-- The cast after a mention that is accepted. -/
def accept (c : Cast) (mention : Text × Nat) : Except LifecycleError Cast :=
  match c.refer mention.1 mention.2 with
  | (.ok _, next) => .ok next
  | (.error e, _) => .error e

/-- The cast after a row of mentions, all accepted, or the first refusal. -/
def acceptAll (c : Cast) (mentions : List (Text × Nat)) : Except LifecycleError Cast := mentions.foldlM accept c

end Cast

/-! ### Actor by actor -/

/-- Whether an actor is alive between two mentions. -/
inductive Phase where
  | closed
  | opened
deriving DecidableEq, Repr

/-- What an actor makes of a mention: the phase that follows and the marks that are
added, or why the mention is refused. -/
def Phase.hear : Phase → Marker → Nat → Except LifecycleFault (Phase × List Int)
  | .closed, .plain, line => .ok (.opened, [Lifespan.markAt line])
  | .opened, .plain, _ => .ok (.opened, [])
  | .closed, .ending, _ => .error .endsUnopened
  | .opened, .ending, line => .ok (.closed, [-Lifespan.markAt line])
  | .closed, .oneShot, line => .ok (.closed, [Lifespan.markAt line, -Lifespan.markAt line])
  | .opened, .oneShot, _ => .error .oneShotWhileOpen
  | _, .ambiguous, _ => .error .ambiguousMarker

/-- How far the mentions of one actor have come. -/
structure Story where
  phase : Phase := .closed
  /-- All marks so far, oldest first. -/
  marks : List Int := []
deriving DecidableEq, Repr

namespace Story

/-- A refused mention changes nothing. -/
def tell (s : Story) (mention : Marker × Nat) : Story :=
  match s.phase.hear mention.1 mention.2 with
  | .ok (phase, more) => { phase, marks := s.marks ++ more }
  | .error _ => s

/-- The story of the actor with a name: of all mentions only those of the name are told. -/
def of (name : Text) (mentions : List (Text × Nat)) : Story :=
  (mentions.filterMap fun (token, line) =>
    if Mention.nameOf token = name then some (Mention.markerOf token, line) else none).foldl tell {}

end Story

/-- The answer to a mention after others. -/
def answerTo (earlier : List (Text × Nat)) (token : Text) (line : Nat) : Except LifecycleError Text :=
  let name := Mention.nameOf token
  match (Story.of name earlier).phase.hear (Mention.markerOf token) line with
  | .ok _ => .ok name
  | .error fault => .error { fault, name, line }

namespace Cast

/-- The actor with a name as its own story makes it. -/
def actorOf (mentions : List (Text × Nat)) (name : Text) : Actor :=
  { name, lifespan := ⟨(Story.of name mentions).marks⟩ }

/-- The names in the order of their first mention, refused or not. -/
def namesOf (mentions : List (Text × Nat)) : List Text :=
  (mentions.map fun mention => Mention.nameOf mention.1).eraseDups

/-- The cast of a run of mentions, told actor by actor. -/
def told (mentions : List (Text × Nat)) : Cast := ⟨(namesOf mentions).map (actorOf mentions)⟩

end Cast

end SequenceDiagram
