import SequenceDiagram.Text.Basic

/-!
Patterns, and the one match that counts. A pattern can match the start of a text in many ways, and the
ways have an order in which an earlier choice outweighs every later one: the left alternative goes
before the right one, and one more round before no further round. The match is the first way.
-/

namespace SequenceDiagram

/-- What the start of a text may look like. Groups do not nest. -/
inductive Pattern where
  /-- One character of a class. -/
  | one (p : Char → Bool)
  /-- The end of the text. -/
  | stop
  | empty
  | seq (first second : Pattern)
  | either (left right : Pattern)
  /-- Any number of rounds, as many as can be; a round takes at least one character. -/
  | many (round : Pattern)
  /-- The part that the inner pattern matches is remembered. -/
  | group (inner : Pattern)

namespace Pattern

/-- How far a match has come: the groups remembered, oldest first, and what follows. -/
structure Place where
  groups : List Text := []
  rest : Text
deriving DecidableEq, Repr

/-- What lies between a place and a later one. -/
def Place.between (start stop : Place) : Text := start.rest.take (start.rest.length - stop.rest.length)

/-- The places that one round after another leads to. -/
def rounds (ways : Place → List Place) (start : Place) : List Place :=
  ((ways start).flatMap fun next =>
    if next.rest.length < start.rest.length then rounds ways next else []) ++ [start]
termination_by start.rest.length

/-- The places that a pattern leads to, the preferred one first. -/
def ways : Pattern → Place → List Place
  | one p, start =>
    match start.rest with
    | c :: rest => if p c then [{ start with rest }] else []
    | [] => []
  | stop, start => if start.rest = [] then [start] else []
  | empty, start => [start]
  | seq first second, start => (first.ways start).flatMap second.ways
  | either left right, start => left.ways start ++ right.ways start
  | many round, start => rounds round.ways start
  | group inner, start =>
    (inner.ways start).map fun next => { next with groups := next.groups ++ [start.between next] }

/-- The groups of the match at the start of a text. -/
def match? (p : Pattern) (t : Text) : Option (List Text) := (p.ways { rest := t }).head?.map Place.groups

/-- At least one round. -/
def atLeastOne (round : Pattern) : Pattern := seq round (many round)

def optional (p : Pattern) : Pattern := either p empty

def char (c : Char) : Pattern := one (· == c)

/-- Exactly this text. -/
def literal : Text → Pattern
  | [] => empty
  | c :: rest => seq (char c) (literal rest)

end Pattern

end SequenceDiagram
