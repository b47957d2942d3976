import LogoStudio.Number.Rounding

/-!
# Sine and cosine

Both are computed in fixed point with 192 binary places: the angle is reduced to at most
an eighth of a turn, the power series are summed there, and the result is rounded to
the nearest number. The places leave room for the cancellation near a multiple of a
quarter turn, for angles up to many turns.
-/
namespace LogoStudio.Number

/-- The number of binary places of the fixed-point numbers below. -/
def places : Nat := 192

/-- A quarter turn in fixed point. -/
def quarterTurn : Int := 9860048348863269281198066682114134445731725432595044866280

def mulFixed (x y : Int) : Int := x * y / Nat.pow 2 places

/-- Sum the terms of a power series in the square of the angle: each term is the previous
one times `-square / (k * (k + 1))`. -/
def alternatingSum (square : Int) : Nat → Nat → Int → Int
  | 0, _, _ => 0
  | fuel + 1, k, term =>
      term + alternatingSum square fuel (k + 2) (-(mulFixed term square) / (k * (k + 1) : Nat))

/-- The sine of a fixed-point angle of at most an eighth of a turn. -/
def sineFixed (x : Int) : Int := alternatingSum (mulFixed x x) 32 2 x

/-- The cosine of a fixed-point angle of at most an eighth of a turn. -/
def cosineFixed (x : Int) : Int := alternatingSum (mulFixed x x) 32 1 (Nat.pow 2 places)

/-- The sine of an angle that is `quarters` quarter turns past `rest`. -/
def sineFrom (quarters rest : Int) : Int :=
  match quarters % 4 with
  | 0 => sineFixed rest
  | 1 => cosineFixed rest
  | 2 => -sineFixed rest
  | _ => -cosineFixed rest

/-- The nearest number to a fixed-point number. -/
def ofFixed (x : Int) : Float := nearest (x < 0) x.natAbs (Nat.pow 2 places)

/-- A finite angle in fixed point. -/
def Exact.toFixed (x : Exact) : Int :=
  let shift := x.exponent + places
  let magnitude : Int := (x.significand * Nat.pow 2 shift.toNat / Nat.pow 2 (-shift).toNat : Nat)
  if x.negative then -magnitude else magnitude

/-- The sine of an angle in radians, `ahead` quarter turns further on. -/
def sineAhead (ahead : Int) (x : Exact) : Float :=
  let angle := x.toFixed
  let quarters := (2 * angle + quarterTurn) / (2 * quarterTurn)
  ofFixed (sineFrom (quarters + ahead) (angle - quarters * quarterTurn))

/-- Below this magnitude an angle is its own sine. -/
def tinyAngle : Float := 1 / 134217728

/-- The sine of an angle in radians. -/
def sine (x : Float) : Float :=
  if x.abs < tinyAngle then x else (decompose? x).elim (0 / 0) (sineAhead 0)

/-- The cosine of an angle in radians. -/
def cosine (x : Float) : Float := (decompose? x).elim (0 / 0) (sineAhead 1)

end LogoStudio.Number
