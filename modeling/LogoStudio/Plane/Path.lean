import LogoStudio.Number.Root
import LogoStudio.Plane.Segment

/-!
# Paths

A path is a list of pen movements. It encloses a point if it winds around the point a
number of times other than zero; parts of it that are not closed stay open. To trace the
outline of a path, its curves are replaced by short lines.
-/
namespace LogoStudio.Plane

/-- One movement of the pen. -/
inductive Element where
  | moveTo (p : Point)
  | lineTo (p : Point)
  | quadTo (q p : Point)
  | curveTo (q r p : Point)
  /-- Back to the point where the pen was last put down. -/
  | close

def Element.map (m : Affine) : Element → Element
  | .moveTo p => .moveTo (m.apply p)
  | .lineTo p => .lineTo (m.apply p)
  | .quadTo q p => .quadTo (m.apply q) (m.apply p)
  | .curveTo q r p => .curveTo (m.apply q) (m.apply r) (m.apply p)
  | .close => .close

/-- Where the pen is: the point at which it was put down, and the point it has reached. -/
structure Pen where
  start : Point
  last : Point

/-- The pen after an element. -/
def Element.move (pen : Pen) : Element → Pen
  | .moveTo p => ⟨p, p⟩
  | .lineTo p => { pen with last := p }
  | .quadTo _ p => { pen with last := p }
  | .curveTo _ _ p => { pen with last := p }
  | .close => { pen with last := pen.start }

/-- The segment that an element draws. -/
def Element.trace (pen : Pen) : Element → Option Segment
  | .moveTo _ => none
  | .lineTo p => some (.line pen.last p)
  | .quadTo q p => some (.quad pen.last q p)
  | .curveTo q r p => some (.cubic pen.last q r p)
  | .close => some (.line pen.last pen.start)

/-- The segment that an element adds to the border of a region: closing a part that ends
where it started adds none. -/
def Element.border (pen : Pen) : Element → Option Segment
  | .close =>
      if pen.last.x == pen.start.x && pen.last.y == pen.start.y then none
      else some (.line pen.last pen.start)
  | e => e.trace pen

/-- A list of pen movements. -/
abbrev Path := List Element

namespace Path

def map (m : Affine) (path : Path) : Path := List.map (Element.map m) path

/-- The segments that the elements give, one after the other. -/
def walk (draw : Pen → Element → Option Segment) (pen : Pen) : Path → List Segment
  | [] => []
  | e :: rest => (draw pen e).toList ++ walk draw (e.move pen) rest

/-- The segments that the pen draws, from the origin. -/
def outline (path : Path) : List Segment := path.walk Element.trace ⟨.origin, .origin⟩

/-- The border of the region that the path encloses. A path that does not begin by putting
down the pen begins where its first element ends. -/
def border : Path → List Segment
  | [] => []
  | e :: rest =>
      let first := (e.move ⟨.origin, .origin⟩).last
      walk Element.border ⟨first, first⟩ (e :: rest)

/-- The smallest rectangle around the border. -/
def box (path : Path) : Box := Box.hull (path.border.map Segment.box)

/-- The parts of the border that each go one way only. -/
def parts (path : Path) : List Segment := path.border.flatMap Segment.parts

end Path

/-- How often some parts of a border wind around a point. -/
def winding (parts : List Segment) (c : Point) : Int :=
  parts.foldl (fun sum g => sum + g.partWinding c) 0

def Path.contains (path : Path) (c : Point) : Bool := winding path.parts c != 0

/-- The lines between the points of a list. -/
def links (points : List Point) : List (Point × Point) := points.zip points.tail

def polygonLength (points : List Point) : Float :=
  (links points).foldl (fun sum (p, q) => sum + Number.hypotenuse (q - p).x (q - p).y) 0

/-- How many lines stand for a curve: one for every two pixels of its control polygon,
which is at least as long as the curve, but at least 4 and at most 256. -/
def curveLines (g : Segment) : Nat :=
  Number.toNat64 (Number.clamp (Number.ceil (polygonLength g.controls / 2)) 4 256)

/-- The lines that stand for a segment. -/
def Segment.lines (g : Segment) : List (Point × Point) :=
  match g with
  | .line p q => [(p, q)]
  | g =>
      let n := curveLines g
      links ((List.range (n + 1)).map fun i => g.point (i.toFloat / n.toFloat))

def Path.lines (path : Path) : List (Point × Point) := path.outline.flatMap Segment.lines

end LogoStudio.Plane
