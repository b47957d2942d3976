import LogoStudio.Number.Binary

/-!
# Shortest decimals

The decimal with the fewest digits that reads back as a given positive number, and of
those the one nearest to it. The numbers that read back as `m * 2 ^ q` form an interval
around it that reaches half way to its neighbours; the ends belong to it when `m` is
even. For one digit, two digits and so on the two decimals of that many digits next to
the number are compared with the interval, until one of them lies inside.
-/
namespace LogoStudio.Number

/-- The decimal `digits * 10 ^ exponent`. -/
structure Decimal where
  digits : Nat
  exponent : Int
  deriving DecidableEq

/-- Which of two equally near decimals to take. -/
inductive Tie where
  | up
  | even
  deriving DecidableEq

/-- The positive reals that read back as one number: from `low` to `high` around
`middle`, all three in units of `2 ^ unit`. -/
structure Interval where
  low : Nat
  middle : Nat
  high : Nat
  unit : Int
  closed : Bool

/-- The interval of `significand * 2 ^ exponent`. Below a power of two the numbers are
twice as dense, except among the smallest ones. -/
def Interval.around (significand : Nat) (exponent : Int) : Interval :=
  let dense := significand = Nat.pow 2 52 ∧ -1074 < exponent
  ⟨4 * significand - (if dense then 1 else 2), 4 * significand, 4 * significand + 2,
    exponent - 2, significand % 2 == 0⟩

/-- Whether `num / den` lies in the interval, both measured in the same unit. -/
def Interval.holds (i : Interval) (num den : Nat) : Bool :=
  if i.closed then i.low * den ≤ num && num ≤ i.high * den
  else i.low * den < num && num < i.high * den

/-- The largest `k` with `10 ^ k ≤ num / den`, searched upwards from `k` for at most
`fuel` steps. -/
def floorLog10From (num den : Nat) : Nat → Int → Int
  | 0, k => k
  | fuel + 1, k =>
      if den * Nat.pow 10 (k + 1).toNat ≤ num * Nat.pow 10 (-(k + 1)).toNat then
        floorLog10From num den fuel (k + 1)
      else k

/-- The largest `k` with `10 ^ k ≤ num / den`. One decimal digit is worth between three
and four binary ones, which gives a start at or below the answer. -/
def floorLog10 (num den : Nat) : Int :=
  let bits := floorLog2 num den
  floorLog10From num den 4 (bits * 30103 / 100000 - 1)

/-- Move the trailing zeros of the digits into the exponent. -/
def Decimal.trim : Nat → Decimal → Decimal
  | 0, d => d
  | fuel + 1, d => if d.digits % 10 = 0 then trim fuel ⟨d.digits / 10, d.exponent + 1⟩ else d

/-- The nearer of `k` and `k + 1` to `num / den`, where both are admitted. -/
def nearerStep (tie : Tie) (num den k : Nat) : Nat :=
  let below := num - k * den
  let above := (k + 1) * den - num
  if below < above then k
  else if above < below then k + 1
  else match tie with
    | .up => k + 1
    | .even => if k % 2 = 0 then k else k + 1

/-- The decimal of the interval whose last digit is worth `10 ^ place`, if there is one. One step
of such decimals is `num / den` units of the interval. -/
def Interval.decimalAt? (i : Interval) (tie : Tie) (place : Int) : Option Decimal :=
  let num := Nat.pow 10 place.toNat * Nat.pow 2 (-i.unit).toNat
  let den := Nat.pow 10 (-place).toNat * Nat.pow 2 i.unit.toNat
  let k := i.middle * den / num
  match i.holds (k * num) den, i.holds ((k + 1) * num) den with
  | true, true => some ⟨nearerStep tie (i.middle * den) num k, place⟩
  | true, false => some ⟨k, place⟩
  | false, true => some ⟨k + 1, place⟩
  | false, false => none

/-- Try one digit more at a time. Seventeen digits are always enough. -/
def Interval.search (i : Interval) (tie : Tie) : Nat → Int → Decimal
  | 0, place => ⟨0, place⟩
  | fuel + 1, place => (i.decimalAt? tie place).getD (search i tie fuel (place - 1))

/-- The shortest decimal that reads back as the positive number `significand *
2 ^ exponent`, without trailing zeros. -/
def shortest (tie : Tie) (significand : Nat) (exponent : Int) : Decimal :=
  let top := floorLog10 (significand * Nat.pow 2 exponent.toNat) (Nat.pow 2 (-exponent).toNat)
  ((Interval.around significand exponent).search tie 18 top).trim 18

end LogoStudio.Number
