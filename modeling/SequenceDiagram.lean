import SequenceDiagram.Text.Basic
import SequenceDiagram.Text.Quoted
import SequenceDiagram.Message
import SequenceDiagram.Mention
import SequenceDiagram.Statement.Basic
import SequenceDiagram.Statement.Reader
import SequenceDiagram.Lifespan
import SequenceDiagram.Actor
import SequenceDiagram.Cast
import SequenceDiagram.Diagram
import SequenceDiagram.Layout.Page
import SequenceDiagram.Layout.Room
import SequenceDiagram.Layout.Arrange
import SequenceDiagram.Canvas.Arms
import SequenceDiagram.Canvas.Basic
import SequenceDiagram.Canvas.Shape
import SequenceDiagram.Picture.Route
import SequenceDiagram.Picture.Scene
import SequenceDiagram.Picture.Paint
import SequenceDiagram.Json
import SequenceDiagram.Snapshot
import SequenceDiagram.Drawing
import SequenceDiagram.Journal
import SequenceDiagram.Editor.Buffer
import SequenceDiagram.Editor.Preview
import SequenceDiagram.Editor.Session
import SequenceDiagram.Editor.Screen
import SequenceDiagram.CommandLine.Options
import SequenceDiagram.CommandLine.Input
import SequenceDiagram.CommandLine.Run
import SequenceDiagram.Main
import SequenceDiagram.Proofs.Attempt
import SequenceDiagram.Proofs.Layout.Row
import SequenceDiagram.Proofs.Layout.Turns
import SequenceDiagram.Proofs.Layout.LabelRoom
import SequenceDiagram.Proofs.Reading.Cast
import SequenceDiagram.Proofs.Picture.Placement
import SequenceDiagram.Proofs.Picture.WholeLabels
import SequenceDiagram.Proofs.Canvas.Drawing
import SequenceDiagram.Proofs.Picture.Extent
import SequenceDiagram.Proofs.Picture.RightEdge
import SequenceDiagram.Proofs.CommandLine.Refusals
import SequenceDiagram.Editor.History
import SequenceDiagram.Proofs.Editor.Freshness
import SequenceDiagram.Proofs.Reading.Attendance
import SequenceDiagram.Proofs.Reading.Statement
import SequenceDiagram.Proofs.Reading.Pattern
import SequenceDiagram.Proofs.Reading.Notation
import SequenceDiagram.Proofs.Reading.RoundTrip
import SequenceDiagram.Proofs.Canvas.Cells
import SequenceDiagram.Proofs.Canvas.Lines
import SequenceDiagram.Proofs.Picture.Arrowheads
import SequenceDiagram.Proofs.Picture.Mirror
import SequenceDiagram.Proofs.Reading.Independence
import SequenceDiagram.Proofs.Picture.MessageRows
import SequenceDiagram.Proofs.Picture.ShownLabels
import SequenceDiagram.Editor.FlatText
import SequenceDiagram.Proofs.Editor.FlatText
import SequenceDiagram.Proofs.Layout.PageWidth
import SequenceDiagram.Editor.Grid
import SequenceDiagram.Proofs.Editor.Grid
import SequenceDiagram.Json.Grammar
import SequenceDiagram.Json.Reader
import SequenceDiagram.Proofs.Export.Reading
import SequenceDiagram.Proofs.Export.Writing
import SequenceDiagram.Proofs.Export.Snapshot
import SequenceDiagram.Proofs.Editor.Opening
import SequenceDiagram.Proofs.Layout.Headers
import SequenceDiagram.Proofs.Layout.Gaps
import SequenceDiagram.Layout.InPlace
import SequenceDiagram.Proofs.Layout.InPlace
import SequenceDiagram.Proofs.Layout.Refusals
import SequenceDiagram.Proofs.Canvas.Strokes
import SequenceDiagram.Proofs.Picture.HeaderRows
import SequenceDiagram.Proofs.Reading.Marks
import SequenceDiagram.Proofs.Reading.Prefixes
import SequenceDiagram.Proofs.Reading.LineBreaks
import SequenceDiagram.Canvas.CellByCell
import SequenceDiagram.Proofs.Canvas.CellByCell
import SequenceDiagram.Proofs.Canvas.Record
import SequenceDiagram.Canvas.Storage
import SequenceDiagram.Proofs.Canvas.Storage
import SequenceDiagram.Layout.Filed
import SequenceDiagram.Proofs.Canvas.Junctions
import SequenceDiagram.Proofs.Picture.LabelPlacement
import SequenceDiagram.Proofs.Reading.Registry
import SequenceDiagram.Proofs.Layout.Filed
import SequenceDiagram.Proofs.Reading.Renaming
import SequenceDiagram.Proofs.Layout.Renaming
import SequenceDiagram.Editor.TimerLog
import SequenceDiagram.Proofs.Editor.TimerLog
import SequenceDiagram.CommandLine.Grammar
import SequenceDiagram.Proofs.CommandLine.Options
import SequenceDiagram.Proofs.Editor.Cursor
import SequenceDiagram.Proofs.Layout.Widenings
import SequenceDiagram.Registry.History
import SequenceDiagram.Proofs.Layout.Registry
import SequenceDiagram.Proofs.Canvas.Printing
import SequenceDiagram.Layout.Counted
import SequenceDiagram.Picture.Counted
import SequenceDiagram.Proofs.Counting
import SequenceDiagram.Proofs.Layout.Counted
import SequenceDiagram.Proofs.Picture.Counted
