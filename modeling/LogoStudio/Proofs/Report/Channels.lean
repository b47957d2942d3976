import LogoStudio.Report
import Mathlib.Logic.Function.Iterate

/-!
# A report, channel by channel

The events of a run go through three channels: lines of the turtle, commands for the canvas,
and lines of text. A pass over the events threads all three through one loop, and yet each of
them comes out as if its own events were alone. The rasters are cleared first and the brush is
new, so that nothing of an earlier pass is left, and drawing keeps the size of a raster, so
that a second pass finds what the first one found.
-/
namespace LogoStudio

def Raster.size (r : Raster) : Nat × Nat := (r.width, r.height)

@[simp] lemma size_draw_line (line : TurtleLine) (r : Raster) : (line.draw r).size = r.size := rfl

@[simp] lemma size_draw_command (b : Brush) (r : Raster) (command : CanvasCommand) :
    (command.draw b r).size = r.size := by
  cases command with
  | fillEllipse center radii =>
      simp only [CanvasCommand.draw]
      split <;> rfl
  | frameEllipse center radii =>
      simp only [CanvasCommand.draw]
      split <;> rfl
  | _ => rfl

lemma size_foldl_draw (lines : List TurtleLine) (r : Raster) :
    (lines.foldl (fun r line => line.draw r) r).size = r.size := by
  induction lines generalizing r with
  | nil => rfl
  | cons line rest ih => rw [List.foldl_cons, ih, size_draw_line]

lemma size_foldl_apply (commands : List CanvasCommand) (c : Canvas) :
    (commands.foldl Canvas.apply c).raster.size = c.raster.size := by
  induction commands generalizing c with
  | nil => rfl
  | cons command rest ih =>
      rw [List.foldl_cons, ih, Canvas.raster_apply, size_draw_command]

def turtleLines (events : List Event) : List TurtleLine :=
  events.filterMap fun
    | .turtle line => some line
    | _ => none

def canvasCommands (events : List Event) : List CanvasCommand :=
  events.filterMap fun
    | .canvas command => some command
    | _ => none

/-- The lines of text among some events. -/
def textLines (events : List Event) : List String :=
  events.filterMap fun
    | .print value => some value
    | .message _ value => some value
    | .runtimeError message => some message
    | .compileError line message => some (compileErrorLine line message)
    | _ => none

/-- Whether an event says that the run was cut off. -/
def Event.cutsOff : Event → Bool
  | .timeout => true
  | _ => false

def Event.isError : Event → Bool
  | .compileError .. => true
  | .runtimeError _ => true
  | _ => false

/-- The lines of the turtle on a blank raster of a given size. -/
def drawing (lines : List TurtleLine) (size : Nat × Nat) : Raster :=
  lines.foldl (fun r line => line.draw r) (.blank size.1 size.2)

/-- The canvas commands, with a new brush, on a blank raster of a given size. -/
def painting (commands : List CanvasCommand) (size : Nat × Nat) : Raster :=
  (commands.foldl Canvas.apply (.new (.blank size.1 size.2))).raster

@[simp] lemma size_drawing (lines : List TurtleLine) (size : Nat × Nat) :
    (drawing lines size).size = size := size_foldl_draw lines _

@[simp] lemma size_painting (commands : List CanvasCommand) (size : Nat × Nat) :
    (painting commands size).size = size := size_foldl_apply commands _

/-- Whether a list of events is drawn: it is not empty and does not start with an error. -/
def isDrawn (events : List Event) : Bool := events.head?.any (!·.isError)

/-- The loop of a pass keeps the channels apart. -/
lemma foldl_take (events : List Event) (p : Pass) :
    events.foldl Pass.take p =
      ⟨p.turtle.map fun r => (turtleLines events).foldl (fun r line => line.draw r) r,
        p.canvas.map fun c => (canvasCommands events).foldl Canvas.apply c,
        (textLines events).reverse ++ p.lines,
        p.timedOut || events.any Event.cutsOff, p.failed || events.any Event.isError⟩ := by
  induction events generalizing p with
  | nil =>
      obtain ⟨turtle, canvas, lines, timedOut, failed⟩ := p
      simp [turtleLines, canvasCommands, textLines]
  | cons event rest ih =>
      obtain ⟨turtle, canvas, lines, timedOut, failed⟩ := p
      rw [List.foldl_cons, ih]
      cases event <;>
        simp [Pass.take, Pass.say, turtleLines, canvasCommands, textLines, Event.cutsOff,
          Event.isError, Function.comp_def]

/-- A list that is drawn gives each channel its own events. -/
lemma ofEvents_of_isDrawn {events : List Event} (h : isDrawn events = true) (screens : Screens) :
    Report.ofEvents events screens =
      (⟨.normal, "\n".intercalate (textLines events), events.any Event.cutsOff,
          events.any Event.isError⟩,
        ⟨screens.turtle.map fun r => drawing (turtleLines events) r.size,
          screens.canvas.map fun r => painting (canvasCommands events) r.size⟩) := by
  have hpass : Report.ofEvents events screens =
      ((events.foldl Pass.take (.start screens)).report,
        (events.foldl Pass.take (.start screens)).screens) := by
    cases events with
    | nil => cases h
    | cons event rest =>
        cases event with
        | compileError line message => cases h
        | runtimeError message => cases h
        | _ => rfl
  rw [hpass, foldl_take]
  simp [Pass.start, Pass.report, Pass.screens, drawing, painting, Raster.clear, Raster.size,
    Function.comp_def]

/-- Any other list leaves the surfaces alone. -/
lemma screens_of_not_isDrawn {events : List Event} (h : isDrawn events = false)
    (screens : Screens) : (Report.ofEvents events screens).2 = screens := by
  cases events with
  | nil => rfl
  | cons event rest =>
      cases event with
      | compileError line message => rfl
      | runtimeError message => rfl
      | _ => cases h

/-- A second pass over the same events draws and says the same. -/
lemma ofEvents_again (events : List Event) (screens : Screens) :
    Report.ofEvents events (Report.ofEvents events screens).2 = Report.ofEvents events screens := by
  cases h : isDrawn events with
  | false => rw [screens_of_not_isDrawn h]
  | true => simp [ofEvents_of_isDrawn h, Function.comp_def]

/-- A pass is a function of its events alone, channel by channel. If the list is drawn, the
turtle's raster is the drawing of the turtle's lines, the canvas is the painting of the canvas
commands, and the text is made of the lines of text; each of them is the same for every other
drawn list with the same events of its channel, whatever the surfaces held and whether there is
another one, as long as its own has the same size. Any other list leaves both surfaces alone.
A second pass changes nothing. -/
theorem report_channel_by_channel (events : List Event) (screens : Screens) :
    (if isDrawn events then
      (Report.ofEvents events screens).2.turtle =
          screens.turtle.map (fun r => drawing (turtleLines events) r.size) ∧
        (Report.ofEvents events screens).2.canvas =
          screens.canvas.map (fun r => painting (canvasCommands events) r.size) ∧
        (Report.ofEvents events screens).1.text = "\n".intercalate (textLines events) ∧
        ∀ events' screens', isDrawn events' = true →
          (turtleLines events' = turtleLines events →
            screens'.turtle.map Raster.size = screens.turtle.map Raster.size →
            (Report.ofEvents events' screens').2.turtle =
              (Report.ofEvents events screens).2.turtle) ∧
          (canvasCommands events' = canvasCommands events →
            screens'.canvas.map Raster.size = screens.canvas.map Raster.size →
            (Report.ofEvents events' screens').2.canvas =
              (Report.ofEvents events screens).2.canvas) ∧
          (textLines events' = textLines events →
            (Report.ofEvents events' screens').1.text = (Report.ofEvents events screens).1.text)
    else (Report.ofEvents events screens).2 = screens) ∧
    Report.ofEvents events (Report.ofEvents events screens).2 =
      Report.ofEvents events screens := by
  refine ⟨?_, ofEvents_again events screens⟩
  cases h : isDrawn events with
  | false => exact screens_of_not_isDrawn h screens
  | true =>
      rw [ofEvents_of_isDrawn h]
      refine ⟨rfl, rfl, rfl, fun events' screens' h' => ?_⟩
      rw [ofEvents_of_isDrawn h']
      refine ⟨fun hlines hsize => ?_, fun hcommands hsize => ?_, fun htext => ?_⟩
      · have hmap := congrArg (Option.map (drawing (turtleLines events))) hsize
        rw [Option.map_map, Option.map_map] at hmap
        rw [hlines]
        exact hmap
      · have hmap := congrArg (Option.map (painting (canvasCommands events))) hsize
        rw [Option.map_map, Option.map_map] at hmap
        rw [hcommands]
        exact hmap
      · rw [htext]

end LogoStudio
