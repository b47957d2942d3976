import LogoStudio.Json.Raw

/-!
# JSON values

A value has whole numbers apart from other numbers: a number without fraction and
exponent that fits in 64 bits stays whole. `Json.parse?` keeps the members of objects as
they stand in the text. In the normal form that `Json.read?` gives, the keys of every
object ascend, and of a repeated key the last value counts.
-/
namespace LogoStudio

inductive Json where
  | null
  | bool (b : Bool)
  | integer (n : Int)
  | float (x : Float)
  | text (s : String)
  | array (items : List Json)
  | object (members : List (String × Json))

namespace Json

/-- The characters of a list of units. Two halves of a surrogate pair make one character,
and a half that stands alone makes none. -/
def decodeUnits? : List Nat → Option (List Char)
  | [] => some []
  | [unit] => if 0xd800 ≤ unit ∧ unit < 0xe000 then none else some [Char.ofNat unit]
  | unit :: next :: rest =>
      if 0xd800 ≤ unit ∧ unit < 0xdc00 then
        if 0xdc00 ≤ next ∧ next < 0xe000 then
          (decodeUnits? rest).map
            (Char.ofNat (0x10000 + (unit - 0xd800) * 0x400 + (next - 0xdc00)) :: ·)
        else none
      else if 0xdc00 ≤ unit ∧ unit < 0xe000 then none
      else (decodeUnits? (next :: rest)).map (Char.ofNat unit :: ·)

def decodeText? (units : List Nat) : Option String := (decodeUnits? units).map String.ofList

/-- The value of a numeral. Only finite numbers are values, and a negative zero is not
whole. -/
def Numeral.value? (n : Numeral) : Option Json :=
  let whole := Number.digitsValue n.whole
  let isWhole := n.fraction.isNone && n.exponent.isNone
  if isWhole && !n.negative && whole < Nat.pow 2 64 then some (.integer whole)
  else if isWhole && n.negative && 0 < whole && whole ≤ Nat.pow 2 63 then some (.integer (-whole))
  else
    let fraction := n.fraction.getD []
    let x := Number.ofDecimal n.negative (Number.digitsValue (n.whole ++ fraction))
      (n.exponent.getD 0 - fraction.length)
    if x.isFinite then some (.float x) else none

/-- How deeply arrays and objects may nest. -/
def maxDepth : Nat := 127

mutual
/-- The value of a text whose arrays and objects nest at most `depth` deep. -/
def ofRaw? (depth : Nat) : Raw → Option Json
  | .null => some .null
  | .bool b => some (.bool b)
  | .number n => n.value?
  | .text units => (decodeText? units).map .text
  | .array items => if depth = 0 then none else (ofItems? (depth - 1) items).map .array
  | .object members => if depth = 0 then none else (ofMembers? (depth - 1) members).map .object
termination_by structural raw => raw

def ofItems? (depth : Nat) : List Raw → Option (List Json)
  | [] => some []
  | item :: rest => do return (← ofRaw? depth item) :: (← ofItems? depth rest)
termination_by structural items => items

def ofMembers? (depth : Nat) : List (List Nat × Raw) → Option (List (String × Json))
  | [] => some []
  | member :: rest => do return (← ofMember? depth member) :: (← ofMembers? depth rest)
termination_by structural members => members

def ofMember? (depth : Nat) : List Nat × Raw → Option (String × Json)
  | (key, value) => do return (← decodeText? key, ← ofRaw? depth value)
termination_by structural member => member
end

/-- Put a member into a list of members with ascending keys, in place of one with the
same key. -/
def insertMember (key : String) (value : Json) : List (String × Json) → List (String × Json)
  | [] => [(key, value)]
  | (k, v) :: rest =>
      if key < k then (key, value) :: (k, v) :: rest
      else if key = k then (key, value) :: rest
      else (k, v) :: insertMember key value rest

/-- Members in ascending order of their keys; of a repeated key the last one counts. -/
def sortMembers (members : List (String × Json)) : List (String × Json) :=
  members.foldl (fun sorted (k, v) => insertMember k v sorted) []

mutual
/-- The same value with sorted objects. -/
def normal : Json → Json
  | .array items => .array (normalItems items)
  | .object members => .object (sortMembers (normalMembers members))
  | .null => .null
  | .bool b => .bool b
  | .integer n => .integer n
  | .float x => .float x
  | .text s => .text s
termination_by structural j => j

def normalItems : List Json → List Json
  | [] => []
  | item :: rest => normal item :: normalItems rest
termination_by structural items => items

def normalMembers : List (String × Json) → List (String × Json)
  | [] => []
  | member :: rest => normalMember member :: normalMembers rest
termination_by structural members => members

def normalMember : String × Json → String × Json
  | (key, value) => (key, normal value)
termination_by structural member => member
end

/-- The value that a text spells, with the members of its objects as they stand. -/
def parse? (text : String) : Option Json := (Raw.read? text.toList).bind (ofRaw? maxDepth)

/-- The value that a text spells, in normal form. -/
def read? (text : String) : Option Json := (parse? text).map normal

/-- The value of a member of an object. -/
def get? (j : Json) (key : String) : Option Json :=
  match j with
  | .object members => members.lookup key
  | _ => none

def asText? : Json → Option String
  | .text s => some s
  | _ => none

/-- The finite number of a value that is a number, whole or not. -/
def asNumber? (j : Json) : Option Float :=
  let finite? (x : Float) : Option Float := if x.isFinite then some x else none
  match j with
  | .integer n => finite? (Float.ofInt n)
  | .float x => finite? x
  | _ => none

/-- A whole number from zero up to and without `bound`. -/
def asNat? (bound : Nat) : Json → Option Nat
  | .integer n => if 0 ≤ n ∧ n < bound then some n.toNat else none
  | _ => none

def asArray? : Json → Option (List Json)
  | .array items => some items
  | _ => none

end Json

end LogoStudio
