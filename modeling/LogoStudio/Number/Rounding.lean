import LogoStudio.Number.Binary

/-!
# Whole numbers, bounds and remainders

Rounding to whole numbers, conversion to bounded integers, clamping and remainders.
Conversions to integers saturate at the ends of the range and send NaN to zero.
`smaller` and `larger` ignore a NaN operand, while `clamp` passes a NaN through.
-/
namespace LogoStudio.Number

/-- From here on every number is whole. -/
def wholeLimit : Float := 4503599627370496

/-- The magnitude of `x` with the sign of `y`. -/
def withSignOf (x y : Float) : Float := if signBit y then -x.abs else x.abs

/-- The whole part of the magnitude of `x`, at most `2 ^ 64 - 1`; zero for NaN. -/
def wholeMagnitude (x : Float) : Nat := x.abs.toUInt64.toNat

/-- Apply `f` to a magnitude and its whole part, keeping the sign. Numbers that are
whole already, the infinities and NaN stay as they are. -/
def onMagnitude (f : Float → Float → Float) (x : Float) : Float :=
  if x.abs < wholeLimit then withSignOf (f x.abs x.abs.toUInt64.toFloat) x else x

/-- Drop the fraction. -/
def truncate (x : Float) : Float := onMagnitude (fun _ w => w) x

/-- The nearest whole number; a half goes away from zero. -/
def round (x : Float) : Float := onMagnitude (fun m w => if m - w < 0.5 then w else w + 1) x

/-- The largest whole number that is not above `x`. -/
def floor (x : Float) : Float :=
  if signBit x then onMagnitude (fun m w => if w < m then w + 1 else w) x else truncate x

/-- The smallest whole number that is not below `x`. -/
def ceil (x : Float) : Float :=
  if signBit x then truncate x else onMagnitude (fun m w => if w < m then w + 1 else w) x

/-- A finite number without a fraction. -/
def isWhole (x : Float) : Bool := x.isFinite && truncate x == x

/-- The whole part as a signed 64-bit integer: saturating, and zero for NaN. -/
def toInt64Range (x : Float) : Int :=
  if x.isNaN then 0
  else if signBit x then -(min (wholeMagnitude x) (Nat.pow 2 63) : Nat)
  else (min (wholeMagnitude x) (Nat.pow 2 63 - 1) : Nat)

/-- The whole part as an unsigned 64-bit integer: saturating, zero for negative numbers
and NaN. -/
def toNat64 (x : Float) : Nat := x.toUInt64.toNat

/-- Move `x` into the range from `lo` to `hi`. -/
def clamp (x lo hi : Float) : Float := if x < lo then lo else if hi < x then hi else x

/-- The smaller of two numbers; the other one if one is NaN. -/
def smaller (x y : Float) : Float := if x.isNaN then y else if y < x then y else x

/-- The larger of two numbers; the other one if one is NaN. -/
def larger (x y : Float) : Float := if x.isNaN then y else if x < y then y else x

/-- The exact remainder of `x` after whole multiples of `y`, with the sign of `x`. -/
def remainder (x y : Float) : Float :=
  match decompose? x, decompose? y with
  | some a, some b =>
      if b.significand = 0 then 0 / 0
      else
        let unit := min a.exponent b.exponent
        Exact.toFloat ⟨a.negative, a.inUnits unit % b.inUnits unit, unit⟩
  | some _, none => if y.isNaN then y else x
  | none, _ => 0 / 0

/-- The remainder of `x` after whole multiples of `y`, moved up by `y` if it is negative.
A tiny negative remainder may round up to `y` itself. -/
def wrap (x y : Float) : Float :=
  let r := remainder x y
  if r < 0 then r + y.abs else r

end LogoStudio.Number
