/-!
# Exact binary numbers

A finite floating-point number is a whole significand times a power of two. This
module takes a number apart into those pieces and puts the ratio of two naturals back
together, rounded to the nearest number with ties to the even significand. All the
decimal conversions and the trigonometry of the project are built on these two steps,
so that they are exact computations on naturals.
-/
namespace LogoStudio.Number

/-- The number `± significand * 2 ^ exponent`. -/
structure Exact where
  negative : Bool
  significand : Nat
  exponent : Int
  deriving DecidableEq

/-- The magnitude in units of `2 ^ unit`, for a unit no larger than the number's own. -/
def Exact.inUnits (x : Exact) (unit : Int) : Nat :=
  x.significand * Nat.pow 2 (x.exponent - unit).toNat

/-- True for negative numbers, for `-0` and for a NaN with its sign bit set. -/
def signBit (x : Float) : Bool := 0x8000000000000000 ≤ x.toBits

/-- The pieces of a finite number; NaN and the infinities have none. -/
def decompose? (x : Float) : Option Exact :=
  let word := x.toBits
  let biased := ((word >>> 52) &&& 0x7ff).toNat
  let fraction := (word &&& 0xfffffffffffff).toNat
  if biased = 0x7ff then none
  else if biased = 0 then some ⟨signBit x, fraction, -1074⟩
  else some ⟨signBit x, fraction + Nat.pow 2 52, (biased : Int) - 1075⟩

/-- The natural nearest to `num / den`; a half goes to the even neighbour. -/
def roundHalfEven (num den : Nat) : Nat :=
  let q := num / den
  let r := num % den
  if 2 * r < den then q
  else if den < 2 * r then q + 1
  else if q % 2 = 0 then q else q + 1

/-- The largest `k` with `2 ^ k ≤ num / den`, for positive `num` and `den`. -/
def floorLog2 (num den : Nat) : Int :=
  let guess : Int := (num.log2 : Int) - den.log2
  if den * Nat.pow 2 guess.toNat ≤ num * Nat.pow 2 (-guess).toNat then guess else guess - 1

/-- The bits of the number nearest to `num / den`, without its sign. A ratio past the
largest finite number gives the bits of infinity. -/
def nearestBits (num den : Nat) : Nat :=
  if num = 0 then 0
  else
    let unit := max (floorLog2 num den - 52) (-1074)
    let significand := roundHalfEven (num * Nat.pow 2 (-unit).toNat) (den * Nat.pow 2 unit.toNat)
    min ((unit + 1074).toNat * Nat.pow 2 52 + significand) 0x7ff0000000000000

/-- The number nearest to `± num / den`. -/
def nearest (negative : Bool) (num den : Nat) : Float :=
  let bits := nearestBits num den
  Float.ofBits (UInt64.ofNat (if negative then bits + Nat.pow 2 63 else bits))

/-- The number nearest to `± significand * 2 ^ exponent`. -/
def Exact.toFloat (x : Exact) : Float :=
  nearest x.negative (x.significand * Nat.pow 2 x.exponent.toNat) (Nat.pow 2 (-x.exponent).toNat)

end LogoStudio.Number
