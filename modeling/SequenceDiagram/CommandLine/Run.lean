import SequenceDiagram.CommandLine.Input
import SequenceDiagram.CommandLine.Options
import SequenceDiagram.Drawing
import SequenceDiagram.Snapshot

/-!
A run of the program, from its arguments to its exit code and what it prints. The one thing a run
asks of the world is to read its input; how that is done is up to the caller.
-/

namespace SequenceDiagram.CommandLine

/-- How a run ends. -/
structure Exit where
  code : Nat
  stdout : String := ""
  stderr : String := ""
deriving DecidableEq, Repr

/-- The name that the program goes by in its messages. -/
def program : String := "rapidseq"

/-- The width of the page where none is set. -/
def defaultWidth : Nat := 120

/-- What the program tells someone who calls it wrongly. -/
def usage : String :=
  s!"Usage:\n  {program} [<file>] [--width <cells>] [--json]\n  {program} [<file>] --tui\n\n" ++
  "Without <file> the diagram is read from stdin.\n" ++
  s!"--width sets the drawing width shared by all actor slots (default {defaultWidth}).\n" ++
  "--json prints the computed layout instead of the picture.\n" ++
  "--tui opens the live editor, seeded with <file> if given.\n\n" ++
  "Set RUST_LOG (e.g. RUST_LOG=debug) for diagnostics on stderr.\n"

/-- A line on the error output, under the program's name. -/
def report (message : String) : String := program ++ ": " ++ message ++ "\n"

namespace Exit

/-- The end of a run that was called wrongly. -/
def misuse : Exit := { code := 2, stderr := usage }

/-- The end of a run that failed. -/
def failure (message : String) : Exit := { code := 1, stderr := report message }

end Exit

/-- The text that the program prints for a diagram's text, after the warnings to report. -/
def output (o : Options) (text : Text) : Except DrawingError (Text × List Overflow) :=
  let page := Page.terminal (o.width.getD defaultWidth)
  let style : Style := {}
  if o.json then
    (Diagram.ofText style.measure page text).map fun (d, outcome) =>
      ((Snapshot.capture d outcome).toText, [])
  else
    (Drawing.ofText style.measure page style text).map fun drawing => (drawing.text, drawing.warnings)

/-- The end of a run that has read its input. -/
def finish (o : Options) (text : Text) : Exit :=
  match output o text with
  | .error e => .failure e.message
  | .ok (printed, warnings) =>
    { code := 0, stdout := String.ofList printed ++ "\n",
      stderr := String.join (warnings.map fun w => report w.message) }

/-- Where the options say to read from. -/
def Options.source (o : Options) : Source :=
  match o.file with
  | none => .standardInput
  | some path => if path = ['-'] then .standardInput else .file path

/-- A run of the program. `terminal` says whether someone types at standard input, where waiting for a
diagram would be of no use. The editor reads its file and then finds no terminal to open. -/
def run {m : Type → Type} [Monad m] (terminal : Bool) (read : Source → m (Except ReadError Text))
    (args : List Text) : m Exit :=
  match Options.parse? args with
  | none => pure .misuse
  | some o =>
    if o.editor then do
      match o.file with
      | none => return .failure ReadError.noTerminal.message
      | some path =>
        match ← read (.file path) with
        | .error e => return .failure e.message
        | .ok _ => return .failure ReadError.noTerminal.message
    else if o.file.isNone && terminal then pure .misuse
    else do
      match ← read o.source with
      | .error e => return .failure e.message
      | .ok text => return finish o text

end SequenceDiagram.CommandLine
