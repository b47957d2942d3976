import LogoStudio.Number.Rounding
import LogoStudio.Plane.Basic

/-!
# Boxes

Rectangles along the axes. Bounds are taken with `smaller` and `larger`, so that a
coordinate that is not a number does not count.
-/
namespace LogoStudio.Plane

open Number (smaller larger)

/-- The rectangle from `low` to `high`. -/
structure Box where
  low : Point
  high : Point

namespace Box

/-- The rectangle with two opposite corners, in any order. -/
def ofCorners (p q : Point) : Box :=
  ⟨⟨smaller p.x q.x, smaller p.y q.y⟩, ⟨larger p.x q.x, larger p.y q.y⟩⟩

/-- The smallest rectangle around two. -/
def union (a b : Box) : Box :=
  ⟨⟨smaller a.low.x b.low.x, smaller a.low.y b.low.y⟩,
    ⟨larger a.high.x b.high.x, larger a.high.y b.high.y⟩⟩

/-- The smallest rectangle around a rectangle and a point. -/
def extend (b : Box) (p : Point) : Box := b.union ⟨p, p⟩

/-- The smallest rectangle around some; the origin if there are none. -/
def hull : List Box → Box
  | [] => ⟨.origin, .origin⟩
  | b :: rest => rest.foldl union b

def isFinite (b : Box) : Bool := b.low.isFinite && b.high.isFinite

end Box

end LogoStudio.Plane
