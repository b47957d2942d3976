import LogoStudio.Number.Reader
import LogoStudio.Text.Hex

/-!
# The grammar of JSON

`Raw` is a JSON text taken apart by the grammar alone: numbers keep their spelling, texts
are lists of units in which an escaped half of a surrogate pair may stand alone, and
objects keep their members in order, repeated keys included. What a value may hold beyond
the grammar is checked afterwards, so that parts of a text that nobody looks at are held
to the grammar only.
-/
namespace LogoStudio.Json

/-- A number as it is spelt. -/
structure Numeral where
  negative : Bool
  whole : List Char
  fraction : Option (List Char)
  exponent : Option Int

/-- A JSON text after its grammar. -/
inductive Raw where
  | null
  | bool (b : Bool)
  | number (n : Numeral)
  | text (units : List Nat)
  | array (items : List Raw)
  | object (members : List (List Nat × Raw))

namespace Raw

/-- The blanks between tokens. -/
def isSpace (c : Char) : Bool := c == ' ' || c == '\n' || c == '\t' || c == '\r'

/-- A text without the blanks at its start. -/
def skip (text : List Char) : List Char := text.dropWhile isSpace

/-- The unit that four hexadecimal digits spell. -/
def unit? (a b c d : Char) : Option Nat := do
  let high := 16 * (← Text.hexDigit? a) + (← Text.hexDigit? b)
  let low := 16 * (← Text.hexDigit? c) + (← Text.hexDigit? d)
  return 256 * high + low

/-- The unit that a one-letter escape stands for. -/
def escape? : Char → Option Nat
  | '"' => some 0x22
  | '\\' => some 0x5c
  | '/' => some 0x2f
  | 'b' => some 0x08
  | 'f' => some 0x0c
  | 'n' => some 0x0a
  | 'r' => some 0x0d
  | 't' => some 0x09
  | _ => none

/-- The units of a text up to its closing quote, and what follows the quote. -/
def readUnits? : List Char → Option (List Nat × List Char)
  | [] => none
  | '"' :: rest => some ([], rest)
  | '\\' :: 'u' :: a :: b :: c :: d :: rest => do
      let unit ← unit? a b c d
      let (units, rest) ← readUnits? rest
      return (unit :: units, rest)
  | '\\' :: c :: rest => do
      let unit ← escape? c
      let (units, rest) ← readUnits? rest
      return (unit :: units, rest)
  | c :: rest => do
      if c.toNat < 0x20 ∨ c = '\\' then none
      else
        let (units, rest) ← readUnits? rest
        return (c.toNat :: units, rest)

/-- At least one digit, and what follows the digits. -/
def readDigits? (text : List Char) : Option (List Char × List Char) :=
  let (digits, rest) := text.span Char.isDigit
  if digits.isEmpty then none else some (digits, rest)

/-- The digits before the point: a zero stands alone. -/
def readWhole? : List Char → Option (List Char × List Char)
  | '0' :: rest => some (['0'], rest)
  | chars => readDigits? chars

/-- The digits after a point, if there is a point. -/
def readFraction? : List Char → Option (Option (List Char) × List Char)
  | '.' :: rest => (readDigits? rest).map fun (digits, rest) => (some digits, rest)
  | chars => some (none, chars)

/-- The exponent after its mark, if there is a mark. -/
def readExponent? (text : List Char) : Option (Option Int × List Char) :=
  match text with
  | mark :: rest =>
      if mark == 'e' || mark == 'E' then do
        let (negative, rest) := Number.splitSign rest
        let (digits, rest) ← readDigits? rest
        let n : Int := Number.digitsValue digits
        return (some (if negative then -n else n), rest)
      else some (none, text)
  | [] => some (none, [])

/-- A number after its sign. -/
def readNumeral? (negative : Bool) (text : List Char) : Option (Numeral × List Char) := do
  let (whole, rest) ← readWhole? text
  let (fraction, rest) ← readFraction? rest
  let (exponent, rest) ← readExponent? rest
  return (⟨negative, whole, fraction, exponent⟩, rest)

mutual
/-- One value after blanks, and what follows it. Each level and each element takes at most
two steps of `fuel`. -/
def readValue? : Nat → List Char → Option (Raw × List Char)
  | 0, _ => none
  | fuel + 1, chars =>
      match skip chars with
      | 'n' :: 'u' :: 'l' :: 'l' :: rest => some (.null, rest)
      | 't' :: 'r' :: 'u' :: 'e' :: rest => some (.bool true, rest)
      | 'f' :: 'a' :: 'l' :: 's' :: 'e' :: rest => some (.bool false, rest)
      | '"' :: rest => (readUnits? rest).map fun (units, rest) => (.text units, rest)
      | '[' :: rest =>
          match skip rest with
          | ']' :: rest => some (.array [], rest)
          | rest => (readItems? fuel rest).map fun (items, rest) => (.array items, rest)
      | '\x7b' :: rest =>
          match skip rest with
          | '\x7d' :: rest => some (.object [], rest)
          | rest => (readMembers? fuel rest).map fun (members, rest) => (.object members, rest)
      | '-' :: rest => (readNumeral? true rest).map fun (n, rest) => (.number n, rest)
      | rest => (readNumeral? false rest).map fun (n, rest) => (.number n, rest)

/-- The elements of an array up to its closing bracket. -/
def readItems? : Nat → List Char → Option (List Raw × List Char)
  | 0, _ => none
  | fuel + 1, chars => do
      let (item, rest) ← readValue? fuel chars
      match skip rest with
      | ',' :: rest =>
          let (items, rest) ← readItems? fuel rest
          return (item :: items, rest)
      | ']' :: rest => return ([item], rest)
      | _ => none

/-- The members of an object up to its closing brace. -/
def readMembers? : Nat → List Char → Option (List (List Nat × Raw) × List Char)
  | 0, _ => none
  | fuel + 1, chars => do
      match skip chars with
      | '"' :: rest =>
          let (key, rest) ← readUnits? rest
          match skip rest with
          | ':' :: rest =>
              let (value, rest) ← readValue? fuel rest
              match skip rest with
              | ',' :: rest =>
                  let (members, rest) ← readMembers? fuel rest
                  return ((key, value) :: members, rest)
              | '\x7d' :: rest => return ([(key, value)], rest)
              | _ => none
          | _ => none
      | _ => none
end

/-- A whole text that holds one value. -/
def read? (text : List Char) : Option Raw :=
  match readValue? (2 * text.length + 2) text with
  | some (value, rest) => if (skip rest).isEmpty then some value else none
  | none => none

end Raw

end LogoStudio.Json
