import LogoStudio.Number.Binary

/-!
# Roots of sums of squares

The length of a vector is computed exactly and rounded once. The square root of a natural
is found one binary digit at a time, and a remainder is kept as one more digit, so that
the last rounding sees on which side of a tie the root lies.
-/
namespace LogoStudio.Number

/-- The whole part of the square root of a natural. -/
def rootFloor (n : Nat) : Nat :=
  if n = 0 then 0
  else
    let r := 2 * rootFloor (n / 4)
    if (r + 1) * (r + 1) ≤ n then r + 1 else r
termination_by n
decreasing_by omega

/-- The nearest number to the square root of `square * 4 ^ unit`. -/
def nearestRoot (square : Nat) (unit : Int) : Float :=
  let widened := square * Nat.pow 2 128
  let r := rootFloor widened
  let last := if r * r = widened then 0 else 1
  Exact.toFloat ⟨false, 2 * r + last, unit - 65⟩

/-- The length of the vector `(x, y)`. It is infinite as soon as one of the two is, even
next to a NaN. -/
def hypotenuse (x y : Float) : Float :=
  match decompose? x, decompose? y with
  | some a, some b =>
      let unit := min a.exponent b.exponent
      nearestRoot (Nat.pow (a.inUnits unit) 2 + Nat.pow (b.inUnits unit) 2) unit
  | _, _ => if x.isInf || y.isInf then 1 / 0 else 0 / 0

end LogoStudio.Number
