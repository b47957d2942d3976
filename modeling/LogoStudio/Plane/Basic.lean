/-!
# Points and affine maps

Points of the plane with floating-point coordinates, and the affine maps between surfaces.
The order of the floating-point operations is part of every definition here, because the
pixels of a drawing depend on it.
-/
namespace LogoStudio.Plane

/-- A point, or the difference of two points. -/
structure Point where
  x : Float
  y : Float
  deriving DecidableEq

namespace Point

def origin : Point := ⟨0, 0⟩

def add (p q : Point) : Point := ⟨p.x + q.x, p.y + q.y⟩

def sub (p q : Point) : Point := ⟨p.x - q.x, p.y - q.y⟩

def scale (p : Point) (k : Float) : Point := ⟨p.x * k, p.y * k⟩

instance : Add Point := ⟨add⟩
instance : Sub Point := ⟨sub⟩

/-- The point that lies `t` of the way from `p` to `q`. -/
def lerp (p q : Point) (t : Float) : Point := ⟨p.x + t * (q.x - p.x), p.y + t * (q.y - p.y)⟩

/-- Both coordinates are finite. -/
def isFinite (p : Point) : Bool := p.x.isFinite && p.y.isFinite

end Point

/-- The map that sends `(x, y)` to `(a * x + c * y + e, b * x + d * y + f)`. -/
structure Affine where
  a : Float
  b : Float
  c : Float
  d : Float
  e : Float
  f : Float
  deriving DecidableEq

namespace Affine

def identity : Affine := ⟨1, 0, 0, 1, 0, 0⟩

/-- The map that moves every point by `p`. -/
def translation (p : Point) : Affine := ⟨1, 0, 0, 1, p.x, p.y⟩

/-- The map that turns the second axis over. -/
def flipY : Affine := ⟨1, 0, 0, -1, 0, 0⟩

/-- The six coefficients in order. -/
def coefficients (m : Affine) : List Float := [m.a, m.b, m.c, m.d, m.e, m.f]

def apply (m : Affine) (p : Point) : Point :=
  ⟨m.a * p.x + m.c * p.y + m.e, m.b * p.x + m.d * p.y + m.f⟩

/-- The map that applies `n` first and `m` second. -/
def after (m n : Affine) : Affine :=
  ⟨m.a * n.a + m.c * n.b, m.b * n.a + m.d * n.b, m.a * n.c + m.c * n.d, m.b * n.c + m.d * n.d,
    m.a * n.e + m.c * n.f + m.e, m.b * n.e + m.d * n.f + m.f⟩

end Affine

end LogoStudio.Plane
