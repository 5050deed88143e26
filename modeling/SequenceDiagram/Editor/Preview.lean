import SequenceDiagram.Editor.Buffer
import SequenceDiagram.Journal

/-!
The live preview beside a text that is being edited. It draws the text anew once the typing has
paused, keeps the last picture while the text has none, and says in a notice what is wrong with it. The
pause is found by a timer that waits for quiet: each request starts the wait anew, and the timer goes off
once, at the first look at it after the wait is over. Times are milliseconds from some fixed moment, and
a look may come at any time, earlier than the last one too.
-/

namespace SequenceDiagram

/-- A timer with at most one deadline. -/
structure QuietTimer where
  /-- How long it has to be quiet. -/
  delay : Nat := 250
  deadline : Option Nat := none
deriving DecidableEq, Repr

namespace QuietTimer

def isPending (t : QuietTimer) : Bool := t.deadline.isSome

/-- Starts the wait anew. -/
def schedule (t : QuietTimer) (now : Nat) : QuietTimer := { t with deadline := some (now + t.delay) }

/-- Gives the wait up. -/
def cancel (t : QuietTimer) : QuietTimer := { t with deadline := none }

/-- The wait is over. -/
def isDue (t : QuietTimer) (now : Nat) : Bool := t.deadline.any (· ≤ now)

/-- Looks at the timer: whether it goes off, and the timer afterwards. -/
def takeDue (t : QuietTimer) (now : Nat) : Bool × QuietTimer :=
  if t.isDue now then (true, t.cancel) else (false, t)

end QuietTimer

/-- What a preview shows, and when it will look at the text again. -/
structure Preview where
  /-- The columns of the screen. -/
  screenWidth : Nat
  /-- The rows of the screen. -/
  screenHeight : Nat
  /-- The page that diagrams are arranged on. -/
  page : Page
  style : Style := {}
  timer : QuietTimer := {}
  /-- What is to be said about the text drawn last. -/
  notice : Option Text := none
  /-- The last picture. -/
  picture : Option Text := none
deriving DecidableEq, Repr

namespace Preview

/-- The share of the screen's width that the diagram gets, in percent. -/
def paneShare : Nat := 80

/-- The columns of the page on a screen: the diagram's share less a gutter on either side. -/
def pageWidth (screenWidth gutter : Nat) : Nat := screenWidth * paneShare / 100 - 2 * gutter

/-- A preview on a screen of this size that has drawn nothing yet. -/
def ofScreen (width height : Nat) : Preview where
  screenWidth := width
  screenHeight := height
  page := .terminal (pageWidth width (Page.terminal 0).gutter)

/-- The drawing of a text as this preview makes it. -/
def draw (p : Preview) (text : Text) : Except DrawingError Drawing :=
  Drawing.ofText p.style.measure p.page p.style text

/-- Draws the text. The last warning becomes the notice; an error does too, and the picture stays. -/
def refresh (p : Preview) (text : Text) : Preview :=
  match p.draw text with
  | .ok drawing =>
    { p with notice := drawing.warnings.getLast?.map (·.message.toList), picture := some drawing.text }
  | .error e => { p with notice := some e.message.toList }

/-- The journal of drawing the text. -/
def journal (p : Preview) (text : Text) : List Entry :=
  Journal.ofDrawing p.style.measure p.page p.style text ++
    match p.draw text with
    | .ok _ => []
    | .error e => [.kept e]

/-- Asks for a drawing once it has been quiet. -/
def schedule (p : Preview) (now : Nat) : Preview := { p with timer := p.timer.schedule now }

/-- Fits the page to a screen of another size and asks for a drawing. -/
def resize (p : Preview) (width height now : Nat) : Preview :=
  { p with
    screenWidth := width
    screenHeight := height
    page := { p.page with width := pageWidth width p.page.gutter } }.schedule now

/-- Takes note of a key: whether it asks for a drawing, and the preview afterwards. -/
def noteKey (p : Preview) (k : Key) (now : Nat) : Bool × Preview :=
  if k.isMuted then (false, p) else (true, p.schedule now)

/-- Draws the text if the wait for quiet is over: whether it is, and the preview afterwards. -/
def poll (p : Preview) (text : Text) (now : Nat) : Bool × Preview :=
  match p.timer.takeDue now with
  | (true, timer) => (true, { p with timer }.refresh text)
  | (false, _) => (false, p)

/-- The journal of looking at the timer. -/
def pollJournal (p : Preview) (text : Text) (now : Nat) : List Entry :=
  if p.timer.isDue now then p.journal text else []

end Preview

end SequenceDiagram
