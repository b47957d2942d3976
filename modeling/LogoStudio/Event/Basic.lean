import LogoStudio.Color
import LogoStudio.Plane.Basic

/-!
# Events

Everything a run shows to the outside is one ordered list of events: printed values,
diagnostics, drawing commands and the end of its time. The order matters: it is the order
of the text and of the drawing, and later drawing depends on earlier changes of the paint.
-/
namespace LogoStudio

open Plane (Point Affine)

/-- How a text lies against its position. -/
inductive TextAlign where
  | left
  | center
  | right
  deriving DecidableEq

/-- A line the turtle drew. The origin of its coordinates is the centre of the surface,
and the second axis points up. -/
structure TurtleLine where
  start : Point
  finish : Point
  color : Color
  deriving DecidableEq

/-- A canvas command. Coordinates are pixels from the top left corner, moved by the
current transform. -/
inductive CanvasCommand where
  | clear
  | fillRect (p q : Point)
  | frameRect (p q : Point)
  | fillEllipse (center radiiSquared : Point)
  | frameEllipse (center radiiSquared : Point)
  | line (start finish : Point)
  | text (text : String) (position : Point)
  | setLineColor (color : Color)
  | setFillColor (color : Color)
  | setPixel (position : Point) (pixel : Pixel)
  | setOpacity (alpha : Float)
  | setFont (font : String)
  | setTextAlign (align : TextAlign)
  | transform (map : Affine)
  | resetTransform
  deriving DecidableEq

/-- One record in the output of a run. -/
inductive Event where
  /-- A problem found before the program ran. -/
  | compileError (line : UInt32) (message : String)
  | runtimeError (message : String)
  /-- The run was cut off by its time limit. -/
  | timeout
  | print (value : String)
  /-- Some other record that carries a text; `kind` is its tag as it was spelt. -/
  | message (kind value : String)
  | turtle (line : TurtleLine)
  | canvas (command : CanvasCommand)
  deriving DecidableEq

def CanvasCommand.tag : CanvasCommand → String
  | .clear => "canvas.clear"
  | .fillRect .. => "canvas.fill"
  | .frameRect .. => "canvas.frame"
  | .fillEllipse .. => "canvas.ellipseFill"
  | .frameEllipse .. => "canvas.ellipseCurve"
  | .line .. => "canvas.line"
  | .text .. => "canvas.text"
  | .setLineColor _ => "canvas.setLineColor"
  | .setFillColor _ => "canvas.setFillColor"
  | .setPixel .. => "canvas.setPixel"
  | .setOpacity _ => "canvas.setOpacity"
  | .setFont _ => "canvas.setFont"
  | .setTextAlign _ => "canvas.setTextAlign"
  | .transform _ => "canvas.transform"
  | .resetTransform => "canvas.resetTransform"

def Event.tag : Event → String
  | .compileError .. => "compile error"
  | .runtimeError _ => "runtime error"
  | .timeout => "timeout"
  | .print _ => "print"
  | .message kind _ => kind
  | .turtle _ => "turtle.line"
  | .canvas command => command.tag

end LogoStudio
