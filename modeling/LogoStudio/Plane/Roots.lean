import LogoStudio.Number.Rounding

/-!
# Roots of quadratics and cubics

The real roots of polynomials of degree two and three, given by their coefficients with
the constant one first. A leading coefficient that is zero, or too small to divide by,
lowers the degree. The order of the floating-point operations is part of the definitions.
-/
namespace LogoStudio.Plane

open Number (withSignOf)

/-- The root of `c0 + c1 * t`. If both coefficients are zero every number is a root, and
zero stands for all of them. -/
def linearRoots (c0 c1 : Float) : List Float :=
  let root := -c0 / c1
  if root.isFinite then [root] else if c0 == 0 && c1 == 0 then [0] else []

/-- Two numbers with product `product`, the first of which is `root`, in ascending order;
only the first if the second is not finite. -/
def withPartner (product root : Float) : List Float :=
  let partner := product / root
  if partner.isFinite then if root < partner then [root, partner] else [partner, root]
  else [root]

/-- The real roots of `s0 + s1 * t + t ^ 2` in ascending order. Where the discriminant
overflows, the root of largest magnitude is taken to be `-s1`. -/
def monicQuadraticRoots (s0 s1 : Float) : List Float :=
  let discriminant := s1 * s1 - 4 * s0
  if !discriminant.isFinite then withPartner s0 (-s1)
  else if discriminant < 0 then []
  else if discriminant == 0 then [-0.5 * s1]
  else withPartner s0 (-0.5 * (s1 + withSignOf discriminant.sqrt s1))

/-- The real roots of `c0 + c1 * t + c2 * t ^ 2` in ascending order. -/
def quadraticRoots (c0 c1 c2 : Float) : List Float :=
  let s0 := c0 * (1 / c2)
  let s1 := c1 * (1 / c2)
  if s0.isFinite && s1.isFinite then monicQuadraticRoots s0 s1 else linearRoots c0 c1

def third : Float := 1 / 3

/-- The real roots of `k0 + 3 * k1 * t + 3 * k2 * t ^ 2 + t ^ 3`. The sign of the
discriminant tells one root, a double root and three roots apart. -/
def monicCubicRoots (k0 k1 k2 : Float) : List Float :=
  let d0 := k1 - k2 * k2
  let d1 := k0 - k1 * k2
  let d2 := k2 * k0 - k1 * k1
  let discriminant := 4 * d0 * d2 - d1 * d1
  let depressed := d1 - 2 * k2 * d0
  if discriminant < 0 then
    let root := (-0.25 * discriminant).sqrt
    let middle := -0.5 * depressed
    [(middle + root).cbrt + (middle - root).cbrt - k2]
  else if discriminant == 0 then
    let root := withSignOf (-d0).sqrt depressed
    [root - k2, -2 * root - k2]
  else
    let angle := discriminant.sqrt.atan2 (-depressed) * third
    let size := 2 * (-d0).sqrt
    let x := angle.cos
    let y := angle.sin * (3 : Float).sqrt
    [size * x - k2, size * (0.5 * (-x + y)) - k2, size * (0.5 * (-x - y)) - k2]

/-- The real roots of `c0 + c1 * t + c2 * t ^ 2 + c3 * t ^ 3`. -/
def cubicRoots (c0 c1 c2 c3 : Float) : List Float :=
  let k0 := c0 * (1 / c3)
  let k1 := c1 * (third * (1 / c3))
  let k2 := c2 * (third * (1 / c3))
  if k0.isFinite && k1.isFinite && k2.isFinite then monicCubicRoots k0 k1 k2
  else quadraticRoots c0 c1 c2

end LogoStudio.Plane
