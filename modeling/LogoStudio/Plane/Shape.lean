import LogoStudio.Number.Angle
import LogoStudio.Plane.Path

/-!
# Shapes

The paths of lines, rectangles and ellipses. An ellipse is made of curves that each cover
the same angle; how many there are grows slowly with its size, so that the curves stay
within a tenth of a pixel of it.
-/
namespace LogoStudio.Plane

def linePath (p q : Point) : Path := [.moveTo p, .lineTo q]

def Box.path (b : Box) : Path :=
  [.moveTo b.low, .lineTo ⟨b.high.x, b.low.y⟩, .lineTo b.high, .lineTo ⟨b.low.x, b.high.y⟩,
    .close]

/-- Half a turn in radians. -/
def halfTurn : Float := 3.141592653589793

/-- An ellipse with its longer radius first, and the angle at which that radius lies. -/
structure Ellipse where
  center : Point
  long : Float
  short : Float
  angle : Float

namespace Ellipse

/-- The ellipse with the given radii along the axes. -/
def ofRadii (center : Point) (rx ry : Float) : Ellipse :=
  let x2 := rx * rx
  let y2 := ry * ry
  let sum := x2 + y2
  let difference := ((x2 - y2) * (x2 - y2)).sqrt
  ⟨center, (0.5 * (sum + difference)).sqrt, (0.5 * (sum - difference)).sqrt,
    if x2 < y2 then halfTurn / 2 else 0⟩

/-- The vector from the centre to the point of the ellipse at a parameter. -/
def arm (e : Ellipse) (t : Float) : Point :=
  let u := e.long * Number.cosine t
  let v := e.short * Number.sine t
  let c := Number.cosine e.angle
  let s := Number.sine e.angle
  ⟨u * c - v * s, u * s + v * c⟩

/-- How far a curve may lie from the ellipse, in pixels. -/
def tolerance : Float := 0.1

/-- How many curves make up the ellipse. -/
def curveCount (e : Ellipse) : Float :=
  let wanted := (1.1163 * (Number.larger e.long e.short / tolerance)).pow (1 / 6)
  Number.ceil (Number.larger wanted 3.999999 * (2 * halfTurn) * (1 / (2 * halfTurn)))

/-- The curves of the ellipse from a parameter on, each of them `step` wide and with control
points `reach` times the derivative away from its ends. -/
def curvesFrom (e : Ellipse) (step reach : Float) : Nat → Float → Point → Path
  | 0, _, _ => []
  | n + 1, t, p =>
      let next := t + step
      let q := e.arm next
      .curveTo (e.center + (p + (e.arm (t + halfTurn / 2)).scale reach))
        (e.center + (q - (e.arm (next + halfTurn / 2)).scale reach)) (e.center + q) ::
        curvesFrom e step reach n next q

def path (e : Ellipse) : Path :=
  let count := e.curveCount
  let step := 2 * halfTurn / count
  let reach := 4 / 3 * (0.25 * step).abs.tan
  let first := e.arm 0
  .moveTo (e.center + first) :: e.curvesFrom step reach (Number.toNat64 count) 0 first

end Ellipse

end LogoStudio.Plane
