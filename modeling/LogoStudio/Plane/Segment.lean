import LogoStudio.Plane.Box
import LogoStudio.Plane.Roots

/-!
# Segments

A segment is a line or a curve with one or two control points, run through as a parameter
goes from zero to one. Cut at its extrema it falls into pieces that go up or down all the
way, and a horizontal ray meets each such piece at most once: that is how the winding
number of a point is counted.
-/
namespace LogoStudio.Plane

open Number (smaller larger)

/-- A line, or a curve with one or two control points. -/
inductive Segment where
  | line (p q : Point)
  | quad (p q r : Point)
  | cubic (p q r s : Point)

namespace Segment

/-- The control polygon, ends included. -/
def controls : Segment → List Point
  | .line p q => [p, q]
  | .quad p q r => [p, q, r]
  | .cubic p q r s => [p, q, r, s]

def start : Segment → Point
  | .line p _ => p
  | .quad p _ _ => p
  | .cubic p _ _ _ => p

def finish : Segment → Point
  | .line _ q => q
  | .quad _ _ r => r
  | .cubic _ _ _ s => s

/-- The point of a curve with one control point. -/
def quadAt (p q r : Point) (t : Float) : Point :=
  let u := 1 - t
  p.scale (u * u) + (q.scale (u * 2) + r.scale t).scale t

/-- The point of a curve with two control points. -/
def cubicAt (p q r s : Point) (t : Float) : Point :=
  let u := 1 - t
  p.scale (u * u * u) + (q.scale (u * u * 3) + (r.scale (u * 3) + s.scale t).scale t).scale t

def point (g : Segment) (t : Float) : Point :=
  match g with
  | .line p q => p.lerp q t
  | .quad p q r => quadAt p q r t
  | .cubic p q r s => cubicAt p q r s t

/-- The parameters strictly between the ends. -/
def interior (ts : List Float) : List Float := ts.filter fun t => 0 < t && t < 1

/-- Where one coordinate of a curve with one control point stands still; `d0` and `d1` are
the differences of the coordinate. -/
def quadTurns (d0 d1 : Float) : List Float :=
  let dd := d1 - d0
  if dd == 0 then [] else interior [-d0 / dd]

/-- Where one coordinate of a curve with two control points stands still; `d0`, `d1` and
`d2` are the differences of the coordinate. -/
def cubicTurns (d0 d1 d2 : Float) : List Float :=
  interior (quadraticRoots d0 (2 * (d1 - d0)) (d0 - 2 * d1 + d2))

/-- The parameters inside the segment where a coordinate stands still, in order. -/
def turns : Segment → List Float
  | .line _ _ => []
  | .quad p q r =>
      let d0 := q - p
      let d1 := r - q
      (quadTurns d0.x d1.x ++ quadTurns d0.y d1.y).mergeSort (· ≤ ·)
  | .cubic p q r s =>
      let d0 := q - p
      let d1 := r - q
      let d2 := s - r
      (cubicTurns d0.x d1.x d2.x ++ cubicTurns d0.y d1.y d2.y).mergeSort (· ≤ ·)

/-- The smallest rectangle around the segment. -/
def box (g : Segment) : Box :=
  (g.turns.map g.point).foldl Box.extend (Box.ofCorners g.start g.finish)

/-- The part of a segment between two parameters. -/
def part (g : Segment) (t0 t1 : Float) : Segment :=
  match g with
  | .line p q => .line (p.lerp q t0) (p.lerp q t1)
  | .quad p q r =>
      let start := quadAt p q r t0
      .quad start (start + ((q - p).lerp (r - q) t0).scale (t1 - t0)) (quadAt p q r t1)
  | .cubic p q r s =>
      let start := cubicAt p q r s t0
      let finish := cubicAt p q r s t1
      let slope := quadAt ((q - p).scale 3) ((r - q).scale 3) ((s - r).scale 3)
      let size := (t1 - t0) * third
      .cubic start (start + (slope t0).scale size) (finish - (slope t1).scale size) finish

/-- The parts from `t0` on, cut at the given parameters. -/
def partsFrom (g : Segment) (t0 : Float) : List Float → List Segment
  | [] => [g.part t0 1]
  | t :: rest => g.part t0 t :: partsFrom g t rest

/-- The parts of a segment between its turns. Each of them goes one way only. -/
def parts (g : Segment) : List Segment := g.partsFrom 0 g.turns

/-- The smallest first coordinate of the control polygon. -/
def left (g : Segment) : Float := (g.controls.map Point.x).foldl smaller (0 / 0)

/-- The largest first coordinate of the control polygon. -/
def right (g : Segment) : Float := (g.controls.map Point.x).foldl larger (0 / 0)

/-- Whether a point that is level with a part of a segment lies on its far side, where a
ray towards smaller coordinates meets the part. `sign` is the way the part goes. -/
def isPast (g : Segment) (sign : Float) (c : Point) : Bool :=
  let crossing (roots : List Float) : Bool :=
    match roots.find? fun t => 0 ≤ t && t ≤ 1 with
    | some t => (g.point t).x ≤ c.x
    | none => false
  match g with
  | .line p q =>
      let a := q.y - p.y
      let b := p.x - q.x
      (a * c.x + b * c.y - (a * p.x + b * p.y)) * sign ≤ 0
  | .quad p q r =>
      crossing (quadraticRoots (p.y - c.y) (2 * (q.y - p.y)) (r.y - 2 * q.y + p.y))
  | .cubic p q r s =>
      crossing (cubicRoots (p.y - c.y) (3 * (q.y - p.y)) (3 * (r.y - 2 * q.y + p.y))
        (s.y - 3 * r.y + 3 * q.y - p.y))

/-- The way a part of a segment goes at the level of a point: `-1` for towards larger
second coordinates, `1` for towards smaller ones, and `0` if it does not reach the level. -/
def direction (g : Segment) (c : Point) : Int :=
  let first := g.start.y
  let last := g.finish.y
  if first < last then if first ≤ c.y && c.y < last then -1 else 0
  else if last < first then if last ≤ c.y && c.y < first then 1 else 0
  else 0

/-- How often a part of a segment that goes one way only winds around a point. -/
def partWinding (g : Segment) (c : Point) : Int :=
  let sign := g.direction c
  if sign = 0 then 0
  else if c.x < g.left then 0
  else if g.right ≤ c.x then sign
  else if g.isPast (Float.ofInt sign) c then sign
  else 0

end Segment

end LogoStudio.Plane
