import LogoStudio.Plane.Shape
import LogoStudio.Raster.Basic

/-!
# The canvas

Canvas commands either draw on a raster with the current brush, or change the brush and
leave no mark. The two effects are separate functions, `CanvasCommand.draw` and
`Brush.change`, and a canvas is a brush together with a raster.
-/
namespace LogoStudio

open Plane (Point Affine Path Box)

/-- How the next command draws. -/
structure Brush where
  fill : Pixel
  line : Pixel
  opacity : Float
  font : String
  align : TextAlign
  map : Affine

namespace Brush

def initial : Brush where
  fill := .black
  line := .black
  opacity := 1
  font := "16px Helvetica"
  align := .left
  map := .identity

/-- The paint for areas and texts. -/
def fillPaint (b : Brush) : Paint := ⟨b.fill, b.opacity⟩

/-- The paint for outlines. -/
def linePaint (b : Brush) : Paint := ⟨b.line, b.opacity⟩

/-- The brush after a command. Commands that draw leave it as it is. -/
def change (b : Brush) : CanvasCommand → Brush
  | .setLineColor color => { b with line := color.pixel }
  | .setFillColor color => { b with fill := color.pixel }
  | .setOpacity alpha => { b with opacity := Number.clamp alpha 0 1 }
  | .setFont font => { b with font }
  | .setTextAlign align => { b with align }
  | .transform map => { b with map := b.map.after map }
  | .resetTransform => { b with map := .identity }
  | .clear | .fillRect .. | .frameRect .. | .fillEllipse .. | .frameEllipse .. | .line ..
  | .text .. | .setPixel .. => b

end Brush

/-- Ellipses with a larger radius are not drawn. -/
def largestRadius : Float := 1000000

def isRadius (x : Float) : Bool := x.isFinite && x ≤ largestRadius

/-- The path of the ellipse with the given squares of its radii, if it can be drawn. -/
def ellipsePath? (center radiiSquared : Point) : Option Path :=
  let rx := radiiSquared.x.sqrt
  let ry := radiiSquared.y.sqrt
  if isRadius rx && isRadius ry && center.isFinite then
    some (Plane.Ellipse.ofRadii center rx ry).path
  else none

/-- The square that stands for one pixel. -/
def pixelSquare (p : Point) : Box := ⟨p, ⟨p.x + 1, p.y + 1⟩⟩

/-- The raster after a command. Commands that change the brush leave it as it is. -/
def CanvasCommand.draw (b : Brush) (r : Raster) : CanvasCommand → Raster
  | .clear => r.clear
  | .fillRect p q => r.fill ((Box.ofCorners p q).path.map b.map) b.fillPaint
  | .frameRect p q => r.stroke ((Box.ofCorners p q).path.map b.map) b.linePaint
  | .fillEllipse center radiiSquared =>
      match ellipsePath? center radiiSquared with
      | some path => r.fill (path.map b.map) b.fillPaint
      | none => r
  | .frameEllipse center radiiSquared =>
      match ellipsePath? center radiiSquared with
      | some path => r.stroke (path.map b.map) b.linePaint
      | none => r
  | .line start finish => r.stroke ((Plane.linePath start finish).map b.map) b.linePaint
  | .text content position => r.write ⟨content, b.map.apply position, b.font, b.align, b.fillPaint⟩
  | .setPixel position pixel =>
      r.fill ((pixelSquare position).path.map b.map) { b.fillPaint with color := pixel }
  | .setLineColor _ | .setFillColor _ | .setOpacity _ | .setFont _ | .setTextAlign _
  | .transform _ | .resetTransform => r

/-- A raster and the brush to draw on it with. -/
structure Canvas where
  brush : Brush
  raster : Raster

namespace Canvas

def new (raster : Raster) : Canvas := ⟨.initial, raster⟩

def apply (c : Canvas) (command : CanvasCommand) : Canvas :=
  match c with
  | ⟨brush, raster⟩ => ⟨brush.change command, command.draw brush raster⟩

@[simp] theorem brush_apply (c : Canvas) (command : CanvasCommand) :
    (c.apply command).brush = c.brush.change command := rfl

@[simp] theorem raster_apply (c : Canvas) (command : CanvasCommand) :
    (c.apply command).raster = command.draw c.brush c.raster := rfl

end Canvas

end LogoStudio
