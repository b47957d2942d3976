import LogoStudio.Number.Rounding

/-!
# Reading decimal numbers

A decimal is read as the nearest number, ties to even, however many digits it has.
Decimals past the largest finite number give infinity and decimals too small for the
smallest one give zero. `read?` reads a whole text: an optional sign, then digits with an
optional point and exponent, or one of the words for infinity and NaN in any case.
-/
namespace LogoStudio.Number

/-- The value of a list of decimal digits. -/
def digitsValue (digits : List Char) : Nat :=
  digits.foldl (fun n c => 10 * n + (c.toNat - '0'.toNat)) 0

/-- The number nearest to `± digits * 10 ^ exponent`. Exponents far outside the range of
numbers are answered without computing the power. -/
def ofDecimal (negative : Bool) (digits : Nat) (exponent : Int) : Float :=
  if digits = 0 then nearest negative 0 1
  else if 400 < exponent then nearest negative (Nat.pow 2 1024) 1
  else if exponent + (digits.log2 / 3 + 1 : Nat) < -400 then nearest negative 0 1
  else nearest negative (digits * Nat.pow 10 exponent.toNat) (Nat.pow 10 (-exponent).toNat)

/-- An optional sign: whether it is a minus, and what follows. -/
def splitSign : List Char → Bool × List Char
  | '-' :: rest => (true, rest)
  | '+' :: rest => (false, rest)
  | text => (false, text)

/-- The exponent that ends a number. No text at all stands for zero. -/
def readExponent? : List Char → Option Int
  | [] => some 0
  | mark :: rest =>
      let (negative, digits) := splitSign rest
      if (mark == 'e' || mark == 'E') && !digits.isEmpty && digits.all Char.isDigit then
        some (if negative then -(digitsValue digits : Int) else digitsValue digits)
      else none

/-- Digits with an optional point and exponent. One digit must stand before or after the
point. -/
def readDecimal? (negative : Bool) (text : List Char) : Option Float :=
  let (whole, rest) := text.span Char.isDigit
  let (fraction, rest) := match rest with
    | '.' :: tail => tail.span Char.isDigit
    | _ => ([], rest)
  if whole.isEmpty && fraction.isEmpty then none
  else (readExponent? rest).map fun exponent =>
    ofDecimal negative (digitsValue (whole ++ fraction)) (exponent - fraction.length)

/-- The words that stand for numbers which are not finite. -/
def readWord? (negative : Bool) (text : List Char) : Option Float :=
  match String.ofList (text.map Char.toLower) with
  | "inf" | "infinity" => some (if negative then -1 / 0 else 1 / 0)
  | "nan" => some (0 / 0)
  | _ => none

/-- The number that a whole text spells. -/
def read? (text : String) : Option Float :=
  let (negative, rest) := splitSign text.toList
  (readWord? negative rest).or (readDecimal? negative rest)

end LogoStudio.Number
