import LogoStudio.Canvas
import LogoStudio.Color
import LogoStudio.CommandLine.Arguments
import LogoStudio.CommandLine.Program
import LogoStudio.Event.Basic
import LogoStudio.Event.Record
import LogoStudio.Event.Tag
import LogoStudio.Input
import LogoStudio.Json.Basic
import LogoStudio.Json.Raw
import LogoStudio.Json.Writer
import LogoStudio.Logo.Check
import LogoStudio.Logo.Code
import LogoStudio.Logo.Compile
import LogoStudio.Logo.Grammar
import LogoStudio.Logo.Machine
import LogoStudio.Logo.Parser
import LogoStudio.Logo.Primitive
import LogoStudio.Logo.Problem
import LogoStudio.Logo.Tree
import LogoStudio.Logo.Value
import LogoStudio.Main
import LogoStudio.Number.Angle
import LogoStudio.Number.Binary
import LogoStudio.Number.Reader
import LogoStudio.Number.Root
import LogoStudio.Number.Rounding
import LogoStudio.Number.Shortest
import LogoStudio.Number.Style
import LogoStudio.Plane.Basic
import LogoStudio.Plane.Box
import LogoStudio.Plane.Path
import LogoStudio.Plane.Roots
import LogoStudio.Plane.Segment
import LogoStudio.Plane.Shape
import LogoStudio.Proofs.Logo.Evaluation
import LogoStudio.Proofs.Logo.Expressions
import LogoStudio.Proofs.Logo.Inputs
import LogoStudio.Proofs.Logo.Layout
import LogoStudio.Proofs.Logo.Lines
import LogoStudio.Proofs.Logo.Meaning
import LogoStudio.Proofs.Logo.Nesting
import LogoStudio.Proofs.Logo.Progress
import LogoStudio.Proofs.Logo.ReadBack
import LogoStudio.Proofs.Logo.Reading
import LogoStudio.Proofs.Logo.Refinement
import LogoStudio.Proofs.Logo.Safety
import LogoStudio.Proofs.Logo.Simulation
import LogoStudio.Proofs.Logo.Tokens
import LogoStudio.Proofs.Logo.Written
import LogoStudio.Proofs.Number.Counting
import LogoStudio.Proofs.Schedule.Independence
import LogoStudio.Raster.Basic
import LogoStudio.Raster.Paint
import LogoStudio.Raster.Png
import LogoStudio.Raster.Turtle
import LogoStudio.Report
import LogoStudio.Schedule.Interpreter
import LogoStudio.Schedule.Session
import LogoStudio.Schedule.Settings
import LogoStudio.Schedule.Timeout
import LogoStudio.Text.Alphanumeric
import LogoStudio.Text.Blank
import LogoStudio.Text.Hex
import LogoStudio.Text.Lead
import LogoStudio.Text.Lines
import LogoStudio.Text.Printable
import LogoStudio.Text.Quoted
import LogoStudio.Text.Ranges
import LogoStudio.Text.Upper
import LogoStudio.Turtle
import LogoStudio.Proofs.Schedule.Journal
import LogoStudio.Proofs.Schedule.Protocol
import LogoStudio.Proofs.Schedule.Timers
import LogoStudio.Proofs.Number.Decimals
import LogoStudio.Proofs.Report.Channels
import LogoStudio.Proofs.Json.Numerals
import LogoStudio.Proofs.Json.RoundTrip
import LogoStudio.Proofs.Event.RoundTrip
import LogoStudio.Proofs.Logo.Diagnostics
import LogoStudio.Proofs.Schedule.Streams
import LogoStudio.Proofs.Logo.Faults
import LogoStudio.Proofs.Logo.Restart
import LogoStudio.Proofs.Logo.Brackets
import LogoStudio.Proofs.Logo.Scopes
import LogoStudio.Proofs.Logo.Overruns
import LogoStudio.Proofs.Logo.ProblemLines
import LogoStudio.Proofs.Logo.Heights
import LogoStudio.Proofs.Logo.Shifts
import LogoStudio.Proofs.Logo.Starts
import LogoStudio.Proofs.Raster.Coverage
import LogoStudio.Proofs.Logo.Seams
import LogoStudio.Proofs.Logo.Lookahead
import LogoStudio.Proofs.Logo.Joining
import LogoStudio.Proofs.Canvas.Clearing
import LogoStudio.Proofs.Schedule.CutOffs
import LogoStudio.Proofs.Number.Squares
import LogoStudio.Proofs.Logo.Arithmetic
import LogoStudio.Proofs.Logo.Effects
import LogoStudio.Proofs.Logo.Finiteness
import LogoStudio.Proofs.Logo.TurtleLines
import LogoStudio.Proofs.Event.Spellings
import LogoStudio.Proofs.Color.Spelling
import LogoStudio.Proofs.CommandLine.Verdict
import LogoStudio.Proofs.Input.Answers
import LogoStudio.Proofs.Logo.HostQueues
