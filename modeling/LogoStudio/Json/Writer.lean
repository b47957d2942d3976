import LogoStudio.Json.Basic
import LogoStudio.Number.Style

/-!
# Writing JSON

Values are written without blanks, the members of objects in the order in which the
value holds them. Numbers that are not finite have no spelling and become `null`.
-/
namespace LogoStudio.Json

/-- Numbers are written without an exponent from `1e-5` up to and without `1e16`, and a
whole number keeps a fraction, which tells it from a whole value. -/
def numberStyle : Number.Style where
  tie := .even
  positional k := -5 ≤ k && k < 16
  wholeEnd := ".0"
  nan := "null"
  infinity := "null"

def numberText (x : Float) : String := if x.isFinite then numberStyle.text x else "null"

def writeChar (c : Char) : List Char :=
  match c with
  | '"' => ['\\', '"']
  | '\\' => ['\\', '\\']
  | '\x08' => ['\\', 'b']
  | '\t' => ['\\', 't']
  | '\n' => ['\\', 'n']
  | '\x0c' => ['\\', 'f']
  | '\r' => ['\\', 'r']
  | _ =>
      if c.toNat < 0x20 then
        ['\\', 'u', '0', '0', Nat.digitChar (c.toNat / 16), Nat.digitChar (c.toNat % 16)]
      else [c]

/-- A text between quotes. -/
def writeText (s : String) : String := String.ofList ('"' :: s.toList.flatMap writeChar ++ ['"'])

mutual
def write : Json → String
  | .null => "null"
  | .bool true => "true"
  | .bool false => "false"
  | .integer n => if n < 0 then "-" ++ Number.digitText n.natAbs else Number.digitText n.natAbs
  | .float x => numberText x
  | .text s => writeText s
  | .array items => "[" ++ ",".intercalate (writeItems items) ++ "]"
  | .object members => "\x7b" ++ ",".intercalate (writeMembers members) ++ "\x7d"
termination_by structural j => j

def writeItems : List Json → List String
  | [] => []
  | item :: rest => write item :: writeItems rest
termination_by structural items => items

def writeMembers : List (String × Json) → List String
  | [] => []
  | member :: rest => writeMember member :: writeMembers rest
termination_by structural members => members

def writeMember : String × Json → String
  | (key, value) => writeText key ++ ":" ++ write value
termination_by structural member => member
end

end LogoStudio.Json
