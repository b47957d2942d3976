import LogoStudio.Number.Rounding
import LogoStudio.Number.Shortest

/-!
# Number text

A style fixes everything about the text of a number that its digits leave open: which
numbers are written without an exponent, whether a whole number keeps a fraction, and
how numbers that are not finite are spelt.
-/
namespace LogoStudio.Number

/-- The decisions behind the text of a number. -/
structure Style where
  tie : Tie
  /-- Whether a number whose first digit is worth `10 ^ k` is written without an exponent. -/
  positional : Int → Bool
  /-- What follows a whole number that is written without an exponent. -/
  wholeEnd : String
  nan : String
  infinity : String

/-- The decimal digits of a natural number. -/
def digitText (n : Nat) : String := String.ofList (Nat.toDigits 10 n)

def zeros (n : Nat) : String := String.ofList (List.replicate n '0')

/-- `d` without an exponent. -/
def Decimal.positionalText (wholeEnd : String) (d : Decimal) : String :=
  let digits := Nat.toDigits 10 d.digits
  let point := (digits.length : Int) + d.exponent
  if 0 ≤ d.exponent then String.ofList digits ++ zeros d.exponent.toNat ++ wholeEnd
  else if 0 < point then
    String.ofList (digits.take point.toNat) ++ "." ++ String.ofList (digits.drop point.toNat)
  else "0." ++ zeros (-point).toNat ++ String.ofList digits

/-- `d` with one digit before the point and a signed exponent. -/
def Decimal.scientificText (d : Decimal) : String :=
  let digits := Nat.toDigits 10 d.digits
  let exponent := (digits.length : Int) + d.exponent - 1
  let fraction := if digits.length ≤ 1 then "" else "." ++ String.ofList (digits.drop 1)
  let sign := if 0 ≤ exponent then "+" else "-"
  String.ofList (digits.take 1) ++ fraction ++ "e" ++ sign ++ digitText exponent.natAbs

def Style.magnitude (style : Style) (significand : Nat) (exponent : Int) : String :=
  if significand = 0 then "0" ++ style.wholeEnd
  else
    let d := shortest style.tie significand exponent
    if style.positional ((digitText d.digits).length + d.exponent - 1) then
      d.positionalText style.wholeEnd
    else d.scientificText

/-- The text of a number. A negative zero keeps its sign. -/
def Style.text (style : Style) (x : Float) : String :=
  match decompose? x with
  | some e => (if e.negative then "-" else "") ++ style.magnitude e.significand e.exponent
  | none =>
      if x.isNaN then style.nan
      else (if signBit x then "-" else "") ++ style.infinity

/-- Messages show numbers without an exponent, and whole numbers without a fraction. -/
def Style.plain : Style where
  tie := .up
  positional _ := true
  wholeEnd := ""
  nan := "NaN"
  infinity := "inf"

/-- The text of a number in a message. -/
def plainText (x : Float) : String := Style.plain.text x

end LogoStudio.Number
