import SequenceDiagram.Editor.Session

/-!
The history of a session: what happens to it from outside, and the drafts that it makes meanwhile. A
draft is one attempt to draw the text as it stands then, on the page as it is then; some attempts
give a picture and all of them have something to tell, be it that there is nothing to say.
-/

namespace SequenceDiagram

/-- What happens to a session. Times need not ascend. -/
inductive Event where
  | press (key : Key) (control : Bool) (now : Nat)
  | resize (width height now : Nat)
  | poll (now : Nat)
deriving DecidableEq, Repr

namespace Event

/-- The size of the screen that an event tells of. -/
def size? : Event → Option (Nat × Nat)
  | resize width height _ => some (width, height)
  | _ => none

end Event

/-- An attempt to draw a text on a page. -/
structure Draft where
  page : Page
  text : Text
deriving DecidableEq, Repr

namespace Draft

/-- What comes of a draft, in the style of every preview. -/
def result (d : Draft) : Except DrawingError Drawing := Drawing.ofText (Style.measure {}) d.page {} d.text

def picture? (d : Draft) : Option Text :=
  match d.result with
  | .ok drawing => some drawing.text
  | .error _ => none

/-- What is to be said about a draft: its error, or else its last warning. -/
def notice? (d : Draft) : Option Text :=
  match d.result with
  | .ok drawing => drawing.warnings.getLast?.map (·.message.toList)
  | .error e => some e.message.toList

end Draft

namespace Session

/-- The session after an event. -/
def after (s : Session) : Event → Session
  | .press key control now => s.press key control now
  | .resize width height now => s.resize width height now
  | .poll now => (s.poll now).2

/-- The session after a run of events. -/
def run (s : Session) (events : List Event) : Session := events.foldl after s

/-- The draft that is made at an event, if any. -/
def draft? (s : Session) : Event → Option Draft
  | .poll now => if (s.poll now).1 then some ⟨s.preview.page, s.buffer.text⟩ else none
  | _ => none

/-- The drafts made during a run of events, oldest first. -/
def drafts (s : Session) : List Event → List Draft
  | [] => []
  | e :: events => (s.draft? e).toList ++ (s.after e).drafts events

/-- The draft that a session starts with. -/
def firstDraft (text : Text) (width height : Nat) : Draft :=
  ⟨(Preview.ofScreen width height).page, (Buffer.ofText text).text⟩

end Session

end SequenceDiagram
