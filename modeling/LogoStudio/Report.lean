import LogoStudio.Canvas
import LogoStudio.Event.Record
import LogoStudio.Raster.Turtle
import LogoStudio.Text.Blank

/-!
# Reports

One pass over the events of a run gives its text, draws its turtle lines on one raster and
applies its canvas commands to another. A list that starts with a diagnostic is a list of
diagnostics: only those of the same kind count, and nothing is drawn. Otherwise both
rasters are cleared first, so that a pass depends on its events alone.
-/
namespace LogoStudio

/-- What sort of run the events come from. -/
inductive ReportKind where
  | normal
  /-- The program did not compile; the text holds the diagnostics. -/
  | compileError
  /-- The run began with an error; the text holds the errors. -/
  | runtimeError
  deriving DecidableEq

/-- What a run shows as text. -/
structure Report where
  kind : ReportKind
  /-- One line for every event with a text, without a last line end. -/
  text : String
  /-- The run was cut off by its time limit. -/
  timedOut : Bool
  /-- A normal run met an error on its way. -/
  failed : Bool

/-- The report of a run without events. -/
def Report.empty : Report := ⟨.normal, "", false, false⟩

/-- The surfaces that a pass draws on; either may be missing. -/
structure Screens where
  turtle : Option Raster
  canvas : Option Raster

def compileErrorLine (line : UInt32) (message : String) : String :=
  "Line " ++ Number.digitText line.toNat ++ ": " ++ message

/-- A pass in progress; `lines` holds the newest line first. -/
structure Pass where
  turtle : Option Raster
  canvas : Option Canvas
  lines : List String
  timedOut : Bool
  failed : Bool

namespace Pass

/-- A pass that starts on cleared surfaces. -/
def start (screens : Screens) : Pass :=
  ⟨screens.turtle.map Raster.clear, screens.canvas.map fun r => .new r.clear, [], false, false⟩

/-- The pass with one more line. -/
def say (p : Pass) (line : String) : Pass := { p with lines := line :: p.lines }

def take (p : Pass) (event : Event) : Pass :=
  match p, event with
  | ⟨turtle, canvas, lines, timedOut, failed⟩, .turtle line =>
      ⟨turtle.map line.draw, canvas, lines, timedOut, failed⟩
  | ⟨turtle, canvas, lines, timedOut, failed⟩, .canvas command =>
      ⟨turtle, canvas.map (·.apply command), lines, timedOut, failed⟩
  | p, .print value => p.say value
  | p, .message _ value => p.say value
  | p, .runtimeError message => { p.say message with failed := true }
  | p, .compileError line message => { p.say (compileErrorLine line message) with failed := true }
  | p, .timeout => { p with timedOut := true }

def screens (p : Pass) : Screens := ⟨p.turtle, p.canvas.map Canvas.raster⟩

def report (p : Pass) : Report :=
  ⟨.normal, "\n".intercalate p.lines.reverse, p.timedOut, p.failed⟩

end Pass

namespace Report

/-- The lines of the compile errors among some events. -/
def compileErrors (events : List Event) : List String :=
  events.filterMap fun
    | .compileError line message => some (compileErrorLine line message)
    | _ => none

/-- The messages of the runtime errors among some events. -/
def runtimeErrors (events : List Event) : List String :=
  events.filterMap fun
    | .runtimeError message => some message
    | _ => none

/-- Draw the events of a run and report on them. -/
def ofEvents (events : List Event) (screens : Screens) : Report × Screens :=
  match events with
  | [] => (.empty, screens)
  | .compileError .. :: _ =>
      ({ empty with kind := .compileError, text := "\n".intercalate (compileErrors events) },
        screens)
  | .runtimeError _ :: _ =>
      ({ empty with kind := .runtimeError, text := "\n".intercalate (runtimeErrors events) },
        screens)
  | events =>
      let pass := events.foldl Pass.take (.start screens)
      (pass.report, pass.screens)

/-- Draw a list of records and report on it. A blank text, or one that holds no list of
records, gives an empty report and leaves the surfaces alone. -/
def ofText (text : String) (screens : Screens) : Report × Screens :=
  if (Text.trim text.toList).isEmpty then (.empty, screens)
  else match Event.readList text with
    | .ok events => ofEvents events screens
    | .error _ => (.empty, screens)

end Report

end LogoStudio
