import SequenceDiagram.Editor.Preview

/-!
The log of a quiet timer: what was asked of it, and for every look whether it went off. The log alone
tells whether something is being waited for and since when, and that is all that the timer goes by. A
preview has such a log too: most of what happens to it asks for a drawing, and each poll is a look.
-/

namespace SequenceDiagram

namespace QuietTimer

/-- What can be done with a timer. Times need not ascend. -/
inductive Call where
  | schedule (now : Nat)
  | cancel
  | look (now : Nat)
deriving DecidableEq, Repr

/-- An entry of the log. -/
inductive Incident where
  | requested (now : Nat)
  | cancelled
  | looked (now : Nat) (wentOff : Bool)
deriving DecidableEq, Repr

namespace Incident

def isRequest : Incident → Bool
  | requested _ => true
  | _ => false

/-- The timer went off. -/
def isRing : Incident → Bool
  | looked _ wentOff => wentOff
  | _ => false

end Incident

/-- The last request of a log was made at this time, and since then nobody has given it up and the
timer has not gone off. -/
def Waits (log : List Incident) (since : Nat) : Prop :=
  ∃ before behind, log = before ++ .requested since :: behind ∧
    ∀ i ∈ behind, i.isRequest = false ∧ i ≠ .cancelled ∧ i.isRing = false

/-- Each look of a log found the timer going off exactly if something was being waited for, for as long
as it takes. -/
def Prompt (delay : Nat) (log : List Incident) : Prop :=
  ∀ before now rang behind, log = before ++ .looked now rang :: behind →
    (rang = true ↔ ∃ since, Waits before since ∧ since + delay ≤ now)

/-- The timer after a call. -/
def after (t : QuietTimer) : Call → QuietTimer
  | .schedule now => t.schedule now
  | .cancel => t.cancel
  | .look now => (t.takeDue now).2

/-- The entry for a call. -/
def told (t : QuietTimer) : Call → Incident
  | .schedule now => .requested now
  | .cancel => .cancelled
  | .look now => .looked now (t.takeDue now).1

/-- The timer after some calls. -/
def run (t : QuietTimer) (calls : List Call) : QuietTimer := calls.foldl after t

/-- The log of some calls, oldest first. -/
def log (t : QuietTimer) : List Call → List Incident
  | [] => []
  | c :: calls => t.told c :: (t.after c).log calls

end QuietTimer

namespace Preview

/-- What can be asked of a preview. -/
inductive Request where
  | resize (width height now : Nat)
  | key (k : Key) (now : Nat)
  | schedule (now : Nat)
  | poll (text : Text) (now : Nat)
  | refresh (text : Text)
deriving DecidableEq, Repr

/-- The preview after a request. -/
def after (p : Preview) : Request → Preview
  | .resize width height now => p.resize width height now
  | .key k now => (p.noteKey k now).2
  | .schedule now => p.schedule now
  | .poll text now => (p.poll text now).2
  | .refresh text => p.refresh text

/-- The entry for a request, if it is one for the log: muted keys are none, and neither is a drawing that
comes without a poll. -/
def told? (p : Preview) : Request → Option QuietTimer.Incident
  | .resize _ _ now | .schedule now => some (.requested now)
  | .key k now => if k.isMuted then none else some (.requested now)
  | .poll text now => some (.looked now (p.poll text now).1)
  | .refresh _ => none

/-- The preview after some requests. -/
def run (p : Preview) (requests : List Request) : Preview := requests.foldl after p

/-- The log of some requests, oldest first. -/
def log (p : Preview) : List Request → List QuietTimer.Incident
  | [] => []
  | r :: requests => (p.told? r).toList ++ (p.after r).log requests

end Preview

end SequenceDiagram
