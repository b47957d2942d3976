import LogoStudio.Event.Basic
import LogoStudio.Number.Angle

/-!
# The turtle

The turtle has a position, a heading in degrees counted anticlockwise from the first axis,
and a pen. Positions are rounded to nine decimal places, so that going straight up stays
on its axis. Positions are not bounded: a far enough move ends at infinity.
-/
namespace LogoStudio

open Plane (Point)

structure Turtle where
  position : Point
  heading : Float
  penDown : Bool
  color : Color

namespace Turtle

/-- The turtle of a new program: at the origin, facing up, with a black pen down. -/
def initial : Turtle := ⟨.origin, 90, true, .black⟩

/-- One coordinate rounded to nine decimal places, where that is possible. -/
def snapCoordinate (x : Float) : Float :=
  let r := Number.round (x * 1000000000) / 1000000000 + 0
  if r.isFinite then r else x

/-- A point with both coordinates rounded. -/
def snap (p : Point) : Point := ⟨snapCoordinate p.x, snapCoordinate p.y⟩

/-- The direction of a heading, as a point at distance one from the origin. -/
def direction (heading : Float) : Point :=
  let angle := heading * (3.141592653589793 / 180)
  ⟨Number.cosine angle, Number.sine angle⟩

/-- Go to a point, with a line if the pen is down. -/
def moveTo (t : Turtle) (p : Point) : Turtle × Option TurtleLine :=
  ({ t with position := p }, if t.penDown then some ⟨t.position, p, t.color⟩ else none)

/-- The point at a distance in the direction of a heading. -/
def ahead (t : Turtle) (heading distance : Float) : Point :=
  snap (t.position + (direction heading).scale distance)

def forward (t : Turtle) (distance : Float) : Turtle × Option TurtleLine :=
  t.moveTo (t.ahead t.heading distance)

def back (t : Turtle) (distance : Float) : Turtle × Option TurtleLine := t.forward (-distance)

def left (t : Turtle) (degrees : Float) : Turtle :=
  { t with heading := Number.wrap (t.heading + degrees) 360 }

def right (t : Turtle) (degrees : Float) : Turtle := t.left (-degrees)

/-- Go back to the origin and face up. -/
def home (t : Turtle) : Turtle × Option TurtleLine := { t with heading := 90 }.moveTo .origin

/-- The largest angle of one piece of an arc. -/
def arcPiece : Float := 10

/-- The lines of a clockwise arc around the turtle that starts straight ahead of it. The
turtle itself stays where it is. -/
def arc (t : Turtle) (degrees radius : Float) : List TurtleLine :=
  if t.penDown then
    let degrees := Number.clamp degrees (-360) 360
    let pieces := Number.toNat64 (Number.ceil (degrees.abs / arcPiece))
    let point (i : Nat) : Point :=
      t.ahead (t.heading - (if i = 0 then 0 else degrees * i.toFloat / pieces.toFloat)) radius
    (List.range pieces).map fun i => ⟨point i, point (i + 1), t.color⟩
  else []

end Turtle

end LogoStudio
