import LogoStudio.CommandLine.Arguments
import LogoStudio.Logo.Machine
import LogoStudio.Report
import LogoStudio.Schedule.Settings
import LogoStudio.Text.Lines

/-!
# The program behind the command line

The program reads its file and its settings, runs the file, prints what the run shows and
saves its pictures. What it needs of the world outside is a record of operations, so that
the same program runs on a disk with a real clock or on a table of texts with made-up
readings. The first thing that goes wrong ends it; that a run failed or was cut off is
reported last.
-/
namespace LogoStudio.CommandLine

open Schedule

/-- Why the program does not end well. -/
inductive Failure where
  | unreadable (path : String)
  | unreadableConfig (path : String)
  | badConfig (path : String)
  | badTimeout (seconds : Float)
  | unwritable (path : String)
  | didNotCompile (path : String)
  | failed (path : String)
  | timedOut (path : String)

def Failure.message : Failure → String
  | .unreadable path => "failed to read " ++ path
  | .unreadableConfig path => "failed to read config " ++ path
  | .badConfig path => "bad config " ++ path
  | .badTimeout seconds => badTimeoutMessage seconds
  | .unwritable path => "failed to write " ++ path
  | .didNotCompile path => path ++ " did not compile"
  | .failed path => path ++ " failed"
  | .timedOut path => path ++ " timed out"

/-- The failure that a report on the run of a file amounts to. -/
def Failure.ofReport? (file : String) (r : Report) : Option Failure :=
  match r.kind with
  | .compileError => some (.didNotCompile file)
  | .runtimeError => some (.failed file)
  | .normal =>
      if r.failed then some (.failed file)
      else if r.timedOut then some (.timedOut file)
      else none

/-- What stands before each line of a report. -/
def lineLead : ReportKind → String
  | .normal => ""
  | .compileError => "Error: "
  | .runtimeError => "Runtime Error: "

/-- The lines that a report prints for a run with the given limit. -/
def reportLines (r : Report) (seconds : Float) : List String :=
  (Text.lines r.text.toList).map (fun line => lineLead r.kind ++ String.ofList line) ++
    if r.timedOut then
      ["Stopped: the program took longer than " ++ Number.plainText seconds ++ " seconds"]
    else []

/-- What the program needs of the world outside. -/
structure Host (m : Type → Type) where
  /-- The text in a file, if it can be read. -/
  read : String → m (Option String)
  /-- Print a line. -/
  print : String → m Unit
  /-- Save a picture; false if that is not possible. -/
  save : String → Raster → m Bool
  /-- Move a session on with the readings of a clock until it is over. -/
  drive : Limits → Session Logo.Machine → m (Session Logo.Machine)
  /-- The last instant of that clock. -/
  lastInstant : Nat

namespace Host

variable {m : Type → Type} [Monad m] (host : Host m)

/-- The text in a file, or a failure. -/
def need (path : String) (failure : Failure) : ExceptT Failure m String := do
  match ← host.read path with
  | some text => return text
  | none => throw failure

/-- The settings in a file; the defaults if no file is named. -/
def settings : Option String → ExceptT Failure m Config
  | none => return .default
  | some path => do
      match Config.read? (← host.need path (.unreadableConfig path)) with
      | some config => return config
      | none => throw (.badConfig path)

def events (config : Config) (source : String) (seconds : Float) (inputs : List Input)
    (surface : Size) : ExceptT Failure m (List Event) := do
  let language := Logo.language Logo.defaultDepthLimit
  match prepare language config host.lastInstant source seconds inputs (some surface) with
  | .badTimeout => throw (.badTimeout seconds)
  | .diagnostics list => return list.map Diagnostic.event
  | .ready limits session => return (← host.drive limits session).events language.toInterpreter

/-- Save a picture where one is asked for. A picture without pixels cannot be saved. -/
def savePicture (path : Option String) (picture : Option Raster) : ExceptT Failure m Unit := do
  match path, picture with
  | some path, some raster =>
      if raster.isEmpty then throw (.unwritable path)
      unless ← host.save path raster do throw (.unwritable path)
  | _, _ => return

def printAll : List String → m Unit
  | [] => return
  | line :: rest => do
      host.print line
      printAll rest

def run (a : Arguments) : ExceptT Failure m Unit := do
  let source ← host.need a.file (.unreadable a.file)
  let config ← host.settings a.config
  let seconds := a.timeout.getD config.defaultTimeout
  let events ← host.events config source seconds (a.inputs.map Input.ofArgument)
    ⟨a.width, a.height⟩
  let blank := Raster.blank a.width a.height
  let (report, screens) := Report.ofEvents events ⟨some blank, some blank⟩
  host.printAll (if a.events then [Event.listText events] else reportLines report seconds)
  host.savePicture a.turtlePng screens.turtle
  host.savePicture a.canvasPng screens.canvas
  match Failure.ofReport? a.file report with
  | some failure => throw failure
  | none => return

end Host

def helpText : String :=
  "Run a LOGO program, print its output and optionally save its drawings

Usage: logo-studio [OPTIONS] <FILE>

Arguments:
  <FILE>  The program to run

Options:
      --timeout <TIMEOUT>        Limit in seconds
      --input <VALUE>            An answer for the program to read
      --config <CONFIG>          A file with settings, as JSON
      --events                   Print the events as JSON
      --width <WIDTH>            [default: 800]
      --height <HEIGHT>          [default: 600]
      --turtle-png <TURTLE_PNG>  Where to save the turtle drawing
      --canvas-png <CANVAS_PNG>  Where to save the canvas drawing
  -h, --help                     Print help"

end LogoStudio.CommandLine
