import LogoStudio.Plane.Shape
import LogoStudio.Raster.Basic

/-!
# Turtle drawings

The turtle's origin is the centre of its surface, and its second axis points up where that
of the surface points down. Every line carries its own colour.
-/
namespace LogoStudio

open Plane (Affine)

/-- The map from the turtle's coordinates to those of a surface. -/
def Raster.turtleMap (r : Raster) : Affine :=
  (Affine.translation ⟨r.width.toFloat / 2, r.height.toFloat / 2⟩).after .flipY

def TurtleLine.draw (line : TurtleLine) (r : Raster) : Raster :=
  r.stroke ((Plane.linePath line.start line.finish).map r.turtleMap) (.solid line.color.pixel)

end LogoStudio
